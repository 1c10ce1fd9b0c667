import Jzf407.Foundation.Presence
import Jzf407.System.MqttTrace

/-!
# The retained status of the device

Other clients learn from the retained message on `stm32/status` whether the device is there. The
device publishes `online` itself, as the second packet of every connection; `offline` is its
will, which the broker publishes when it loses the device.

A connection does not end for both sides at once. The device gives one up and tries the next
while the broker, which has heard nothing of it, still holds the old one with packets of it in
flight; and a reset is not announced at all. `statusSystem` is the whole of the device with all
its connections (`StatusNet`), a broker that receives the packets of each of them in order and at
any time, and other clients. `status_iff` says that the retained status is nevertheless right, from
the broker's point of view, as long as the device keeps its client identifier and the others leave
both it and the topic alone (`StatusNet.Allowed`).

The proof maps this system to that of a broker alone (`statusSimulation`), whose result it then
uses. What has to be shown is that the device is a client as the pattern wants it
(`Inv.obeys`): the first packet of each of its connections is a CONNECT with the will, the second
is the status, and nothing later touches the topic. This is known of the log of a connection
(`statusPacket_of_talks`), and the packets of a connection are the entries of the log that are
packets (`MqttTask.packets`). The invariant `StatusNet.Inv` keeps it of the old connections, too,
which the device has forgotten.
-/

namespace Jzf407

open Foundation

/-! ### Packets -/

/-- The packet of an entry, if it was sent. -/
def Entry.packet : Entry → Option Packet
  | .sent p => some p
  | .received _ => none

/-- The packets handed to the current connection. -/
def MqttTask.packets (t : MqttTask) : List Packet := t.entries.filterMap Entry.packet

/-- How the broker knows a client: by its identifier, or by one that it makes up for the
connection. -/
abbrev BrokerClient := Str ⊕ ℕ

/-- The connections: those of the device, and those of other clients. -/
abbrev BrokerLink := ℕ ⊕ ℕ

/-- What a packet is to the broker. -/
def Packet.toPresence (link : ℕ) : Packet → Presence.Packet BrokerClient Str (List UInt8)
  | connect clientId options =>
      .connect (match clientId with
        | some (c :: id) => .inl (c :: id)
        | _ => .inr link)
        ⟨options.will.topic, options.will.message, options.will.retain⟩
  | publish topic payload retain => .publish topic payload retain
  | subscribe _ | pingreq => .other

/-! ### The device, its connections and the broker -/

/-- The device, the number of its current connection, the packets handed to each connection, and
the broker. -/
structure StatusNet where
  dev : MqttNet
  current : ℕ
  sent : ℕ → List Packet
  broker : Presence.Broker BrokerLink BrokerClient Str (List UInt8)

/-- What happens. -/
inductive StatusEvent
  | device (e : MqttEvent)
  | receive (link : ℕ) (p : Packet)
  | lose (link : BrokerLink)
  | other (link : ℕ) (p : Presence.Packet BrokerClient Str (List UInt8))

/-- The device leaves its connection and takes a new one. -/
def MqttEvent.Renews : MqttEvent → Bool
  | await .networkUp | await .retry | reset _ _ => true
  | _ => false

namespace StatusNet

/-- The start of a run. -/
def boot (cfg : NetworkConfig) (reason : ResetReason) : StatusNet where
  dev := MqttNet.boot cfg reason
  current := 0
  sent _ := []
  broker := Presence.Broker.empty

/-- **One step.** The broker receives the packets of a connection of the device in their
order, as long as it has not closed that connection. -/
def step (s : StatusNet) : StatusEvent → Option StatusNet
  | .device e =>
      (s.dev.step e).map fun dev =>
        let current := if e.Renews then s.current + 1 else s.current
        { s with
          dev := dev
          current := current
          sent := Function.update s.sent current dev.task.packets }
  | .receive link p =>
      let l := s.broker.link (.inl link)
      if l.closed = false ∧ (s.sent link)[l.received]? = some p then
        some { s with broker := s.broker.receive (.inl link) (p.toPresence link) }
      else none
  | .lose link =>
      if (s.broker.link link).closed = false then
        some { s with broker := s.broker.lose link }
      else none
  | .other link p =>
      if (s.broker.link (.inr link)).closed = false then
        some { s with broker := s.broker.receive (.inr link) p }
      else none

end StatusNet

/-- The broker knows the device by this identifier. -/
def NetworkConfig.Identifies (cfg : NetworkConfig) (id : Str) : Prop :=
  mqttString (clientIdStr cfg) = some id ∧ id ≠ []

instance (cfg : NetworkConfig) (id : Str) : Decidable (cfg.Identifies id) :=
  inferInstanceAs (Decidable (_ ∧ _))

/-- The pattern that keeps the status of a device right: its birth message and its will. -/
def StatusObeys (id : Str) :
    Presence.Link BrokerClient → Presence.Packet BrokerClient Str (List UInt8) → Prop :=
  Presence.Obeys (.inl id) topicStatus (asBytes "online".toList) (asBytes "offline".toList)

/-- What may happen: after a reset the device comes back with the same client identifier, and the
other clients neither use it nor retain anything on the topic of the status. -/
def StatusNet.Allowed (id : Str) (s : StatusNet) : StatusEvent → Prop
  | .device (.reset cfg _) => cfg.Identifies id
  | .other link p => StatusObeys id (s.broker.link (.inr link)) p ∧
      ∀ will, p ≠ .connect (.inl id) will
  | _ => True

/-- **The system of the device and the broker.** -/
def statusSystem (id : Str) : System StatusNet StatusEvent where
  init s := ∃ cfg reason, cfg.Identifies id ∧ s = StatusNet.boot cfg reason
  step s e s' := s.Allowed id e ∧ s.step e = some s'

/-! ### What the device sends on a connection -/

/-- What the `k`-th packet of a connection is to the status. -/
def StatusPacket (id : Str) (k : ℕ) (p : Packet) : Prop :=
  match k with
  | 0 => ∃ cfg : NetworkConfig, cfg.Identifies id ∧ p = connectPacket cfg
  | 1 => p = publishRetained topicStatus (asBytes "online".toList)
  | _ => ∀ link, (p.toPresence link).Quiet topicStatus

/-- The packets that begin a connection. -/
def preamblePackets (cfg : NetworkConfig) (reason : ResetReason) : List Packet :=
  [connectPacket cfg, publishRetained topicStatus (asBytes "online".toList),
    publishRetained topicDiag (asBytes reason.asStr)] ++ subscribeTopics.map Packet.subscribe

theorem filterMap_mqttPreamble (cfg : NetworkConfig) (reason : ResetReason) :
    (mqttPreamble cfg reason).filterMap Entry.packet = preamblePackets cfg reason := rfl

/-- The blocks leave the status alone. -/
theorem MqttBlock.quiet {block : List Entry} (h : MqttBlock block) {p : Packet}
    (hp : .sent p ∈ block) (link : ℕ) : (p.toPresence link).Quiet topicStatus := by
  have hno : ∀ {retain : Bool}, retain = false → ∀ t : Str, retain = true → t ≠ topicStatus :=
    fun hfalse t htrue => absurd htrue (by simp [hfalse])
  cases h with
  | heartbeat | report | answer =>
    simp only [List.mem_cons, List.not_mem_nil, or_false, Entry.sent.injEq, reduceCtorEq,
      false_or] at hp
    rw [hp]
    exact hno rfl _
  | keepAlive =>
    simp only [List.mem_cons, List.not_mem_nil, or_false, Entry.sent.injEq] at hp
    rw [hp]
    trivial
  | message => simp at hp

/-- **The packets of a connection**, in their order. -/
theorem statusPacket_of_talks {t : MqttTask} {id : Str} (h : t.Talks) (hid : t.cfg.Identifies id)
    {k : ℕ} {p : Packet} (hp : t.packets[k]? = some p) : StatusPacket id k p := by
  obtain ⟨rest, hprefix, hrest⟩ : ∃ rest, t.packets <+: preamblePackets t.cfg t.reason ++ rest ∧
      ∀ p ∈ rest, ∀ link, (p.toPresence link).Quiet topicStatus := by
    -- a legal log is a part of the preamble, or all of it and blocks
    rcases h.log.legal with hlog | ⟨blocks, hlog, hblocks⟩
    · refine ⟨[], ?_, by simp⟩
      rw [List.append_nil, ← filterMap_mqttPreamble]
      exact hlog.filterMap _
    · refine ⟨blocks.flatten.filterMap Entry.packet, ?_, fun p hp link => ?_⟩
      · rw [← filterMap_mqttPreamble, ← List.filterMap_append, ← hlog]
        exact List.prefix_refl _
      · obtain ⟨e, he, hsome⟩ := List.mem_filterMap.mp hp
        obtain ⟨block, hblock, he⟩ := List.mem_flatten.mp he
        cases e with
        | received _ => cases hsome
        | sent q =>
          obtain rfl := Option.some.inj hsome
          exact (hblocks block hblock).quiet he link
  have hget : (preamblePackets t.cfg t.reason ++ rest)[k]? = some p := by
    obtain ⟨tail, htail⟩ := hprefix
    rw [← htail, List.getElem?_append_left (List.getElem?_eq_some_iff.mp hp).1]
    exact hp
  -- the first two packets are those of the pattern, and the third is on another topic
  match k with
  | 0 => exact ⟨t.cfg, hid, (Option.some.inj hget).symm⟩
  | 1 => exact (Option.some.inj hget).symm
  | k + 2 =>
    intro link
    have hmem : p ∈ publishRetained topicDiag (asBytes t.reason.asStr) ::
        (subscribeTopics.map Packet.subscribe ++ rest) := List.mem_of_getElem? (i := k) hget
    rcases List.mem_cons.mp hmem with rfl | hmem
    · exact fun _ => (by decide : topicDiag ≠ topicStatus)
    · rcases List.mem_append.mp hmem with hmem | hmem
      · obtain ⟨topic, -, rfl⟩ := List.mem_map.mp hmem
        trivial
      · exact hrest p hmem link

/-! ### The broker sees the pattern -/

/-- The event at the broker. -/
def StatusEvent.toPresence :
    StatusEvent → Option (Presence.Event BrokerLink BrokerClient Str (List UInt8))
  | device _ => none
  | receive link p => some (.receive (.inl link) (p.toPresence link))
  | lose link => some (.lose link)
  | other link p => some (.receive (.inr link) p)

/-- **The invariant of the connections**: the device sends on each of them what it should, and
the broker knows it by its identifier. -/
structure StatusNet.Inv (id : Str) (s : StatusNet) : Prop where
  talks : s.dev.task.Talks
  identifies : s.dev.task.cfg.Identifies id
  sent : ∀ i k p, (s.sent i)[k]? = some p → StatusPacket id k p
  client : ∀ i, (s.broker.link (.inl i)).received ≠ 0 →
    (s.broker.link (.inl i)).client = some (.inl id)

/-- The CONNECT of the device, as the broker reads it. -/
theorem connectPacket_toPresence {cfg : NetworkConfig} {id : Str} (h : cfg.Identifies id)
    (link : ℕ) : (connectPacket cfg).toPresence link =
      .connect (.inl id) ⟨topicStatus, asBytes "offline".toList, true⟩ := by
  obtain ⟨hid, hne⟩ := h
  rw [connectPacket, hid]
  cases id with
  | nil => exact absurd rfl hne
  | cons c id => rfl

namespace StatusNet

variable {id : Str} {s s' : StatusNet}

/-- **A packet of the device obeys the pattern.** -/
theorem Inv.obeys (h : s.Inv id) {i : ℕ} {p : Packet}
    (hp : (s.sent i)[(s.broker.link (.inl i)).received]? = some p) :
    StatusObeys id (s.broker.link (.inl i)) (p.toPresence i) := by
  have hpacket := h.sent i _ p hp
  have hclient := h.client i
  unfold StatusObeys Presence.Obeys
  split
  · next hnew =>
    rw [hnew] at hpacket
    obtain ⟨cfg, hid, rfl⟩ := hpacket
    exact ⟨.inl id, _, connectPacket_toPresence hid i, fun _ => rfl, fun hne => absurd rfl hne⟩
  · next hone =>
    rw [hone] at hpacket
    exact ⟨fun _ => by rw [hpacket]; rfl, fun hne => absurd (hclient (by omega)) hne⟩
  · next h₀ h₁ =>
    unfold StatusPacket at hpacket
    split at hpacket
    · next hk => exact absurd hk h₀
    · next hk => exact absurd hk h₁
    · exact hpacket i

/-- A step of the device. -/
theorem Inv.device (h : s.Inv id) {e : MqttEvent} (hallowed : s.Allowed id (.device e))
    (hstep : s.step (.device e) = some s') : s'.Inv id := by
  obtain ⟨dev, hdev, rfl⟩ := Option.map_eq_some_iff.mp hstep
  have htask := MqttNet.taskStep_of_step hdev
  have htalks : dev.task.Talks := h.talks.step htask
  have hid : dev.task.cfg.Identifies id := by
    rcases htask.start_eq with hstart | ⟨cfg, reason, rfl, hstart⟩
    · rw [show dev.task.cfg = s.dev.task.cfg from congrArg Prod.fst hstart]
      exact h.identifies
    · rw [show dev.task.cfg = cfg from congrArg Prod.fst hstart]
      exact hallowed
  refine ⟨htalks, hid, fun i k p hp => ?_, h.client⟩
  dsimp only at hp
  by_cases hi : i = if e.Renews then s.current + 1 else s.current
  · rw [hi, Function.update_self] at hp
    exact statusPacket_of_talks htalks hid hp
  · rw [Function.update_of_ne hi] at hp
    exact h.sent i k p hp

/-- A packet of the device is received. -/
theorem Inv.receive (h : s.Inv id) {i : ℕ} {p : Packet}
    (hp : (s.sent i)[(s.broker.link (.inl i)).received]? = some p) :
    ({ s with broker := s.broker.receive (.inl i) (p.toPresence i) } : StatusNet).Inv id where
  talks := h.talks
  identifies := h.identifies
  sent := h.sent
  client j hj := by
    -- the link of the packet: the first one names the client, and no later one does
    by_cases hji : j = i
    · subst hji
      have hpacket := h.sent j _ p hp
      have hclient := h.client j
      unfold StatusPacket at hpacket
      split at hpacket
      · obtain ⟨cfg, hid, rfl⟩ := hpacket
        dsimp only
        rw [connectPacket_toPresence hid, Presence.Broker.client_receive_connect]
      · next hone =>
        dsimp only
        have hconnect : ∀ c will, p.toPresence j ≠ .connect c will := by
          rw [hpacket]
          exact fun _ _ heq => by cases heq
        rw [Presence.client_receive_of_ne hconnect]
        exact hclient (by omega)
      · next h₀ _ =>
        dsimp only
        rw [Presence.client_receive_of_ne (hpacket j).ne_connect]
        exact hclient h₀
    · have hne : (Sum.inl j : BrokerLink) ≠ .inl i := fun heq => hji (Sum.inl.inj heq)
      obtain ⟨hreceived, hclient⟩ := s.broker.fields_receive_of_ne hne (p.toPresence i)
      dsimp only at hj ⊢
      rw [hclient]
      exact h.client j (hreceived ▸ hj)

/-- **Every step** keeps the invariant of the connections. -/
theorem Inv.step (h : s.Inv id) {e : StatusEvent} (hallowed : s.Allowed id e)
    (hstep : s.step e = some s') : s'.Inv id := by
  cases e with
  | device e => exact h.device hallowed hstep
  | receive link p =>
    obtain ⟨⟨-, hp⟩, hsome⟩ := Option.ite_none_right_eq_some.mp hstep
    exact Option.some.inj hsome ▸ h.receive hp
  | lose link =>
    obtain ⟨-, hsome⟩ := Option.ite_none_right_eq_some.mp hstep
    obtain rfl := Option.some.inj hsome
    refine ⟨h.talks, h.identifies, h.sent, fun i hi => ?_⟩
    obtain ⟨hreceived, hclient, -⟩ := s.broker.fields_lose link (.inl i)
    dsimp only at hi ⊢
    rw [hclient]
    exact h.client i (hreceived ▸ hi)
  | other link p =>
    obtain ⟨-, hsome⟩ := Option.ite_none_right_eq_some.mp hstep
    obtain rfl := Option.some.inj hsome
    refine ⟨h.talks, h.identifies, h.sent, fun i hi => ?_⟩
    obtain ⟨hreceived, hclient⟩ :=
      s.broker.fields_receive_of_ne (Sum.inl_ne_inr : (Sum.inl i : BrokerLink) ≠ .inr link) p
    dsimp only at hi ⊢
    rw [hclient]
    exact h.client i (hreceived ▸ hi)

theorem inv_boot {cfg : NetworkConfig} (reason : ResetReason) (hid : cfg.Identifies id) :
    (boot cfg reason).Inv id where
  talks := MqttTask.talks_boot cfg reason 0
  identifies := hid
  sent i k p hp := by simp [boot] at hp
  client i hi := absurd rfl hi

end StatusNet

/-- **The broker sees a client that keeps to the pattern.** -/
theorem statusSimulation (id : Str) :
    System.Simulation ((statusSystem id).guarded fun s _ => s.Inv id)
      (Presence.system (.inl id) topicStatus (asBytes "online".toList)
        (asBytes "offline".toList))
      StatusNet.broker StatusEvent.toPresence where
  init := by
    rintro _ ⟨cfg, reason, -, rfl⟩
    rfl
  step := by
    rintro s e s' ⟨hinv, hallowed, hstep⟩
    cases e with
    | device e =>
      obtain ⟨dev, -, rfl⟩ := Option.map_eq_some_iff.mp hstep
      rfl
    | receive link p =>
      obtain ⟨⟨hopen, hp⟩, hsome⟩ := Option.ite_none_right_eq_some.mp hstep
      exact ⟨hopen, hinv.obeys hp, Option.some.inj hsome ▸ rfl⟩
    | lose link =>
      obtain ⟨hopen, hsome⟩ := Option.ite_none_right_eq_some.mp hstep
      exact ⟨hopen, Option.some.inj hsome ▸ rfl⟩
    | other link p =>
      obtain ⟨hopen, hsome⟩ := Option.ite_none_right_eq_some.mp hstep
      exact ⟨hopen, hallowed.1, Option.some.inj hsome ▸ rfl⟩

/-- **The retained status is right**: it says `online` exactly while the broker has a connection
of the device on which it has received the status, and otherwise nothing or `offline`; however
the connections of the device overlap, and whatever becomes of the packets on them.

This asks two things (`StatusNet.Allowed`). The device boots every time with the same client
identifier, which is not blank: otherwise the will of its old connection is published after the
birth message of the new one. And the other clients neither use that identifier nor retain
anything on the topic of the status, by a publication or by a will. -/
theorem status_iff {id : Str} {s : StatusNet} (h : (statusSystem id).Reachable s) :
    (s.broker.retained topicStatus = some (asBytes "online".toList) ↔
      ∃ link will, s.broker.session (.inl id) = some (link, will) ∧
        2 ≤ (s.broker.link link).received) ∧
    (s.broker.retained topicStatus = none ∨
      s.broker.retained topicStatus = some (asBytes "online".toList) ∨
      s.broker.retained topicStatus = some (asBytes "offline".toList)) := by
  obtain ⟨s₀, l, hs₀, hrun⟩ := h
  have hinv : s₀.Inv id := by
    obtain ⟨cfg, reason, hid, rfl⟩ := hs₀
    exact StatusNet.inv_boot reason hid
  have hkeep : ∀ s e t, StatusNet.Inv id s → (statusSystem id).step s e t → StatusNet.Inv id t :=
    fun s e t hs hstep => hs.step hstep.1 hstep.2
  have hreach : (Presence.system (.inl id) topicStatus
      (asBytes "online".toList) (asBytes "offline".toList)).Reachable s.broker :=
    ⟨_, _, (statusSimulation id).init s₀ hs₀,
      (statusSimulation id).run (hrun.guarded_of_invariant hkeep hinv)⟩
  exact Presence.presence_iff (by decide) hreach

/-- A connection up to the status, of a device that keeps its identifier. -/
theorem status_iff_connected :
    ∃ s, (statusSystem defaultId).Reachable s ∧
      s.broker.retained topicStatus = some (asBytes "online".toList) ∧
      (s.broker.retained topicStatus = some (asBytes "online".toList) ↔
        ∃ link will, s.broker.session (.inl defaultId) = some (link, will) ∧
          2 ≤ (s.broker.link link).received) := by
  obtain ⟨s, hs, hcheck⟩ := System.Reachable.exists_of_foldlM (S := statusSystem defaultId)
    (l := [.device (.await .networkUp), .device (.await (.tcp true)),
      .receive 1 (connectPacket .default), .device (.await (.connack true)),
      .receive 1 (publishRetained topicStatus (asBytes "online".toList))])
    (f := StatusNet.step)
    (by simp [statusSystem, StatusNet.Allowed])
    ⟨.default, .powerOn, by decide +kernel, rfl⟩
    (P := fun s =>
      decide (s.broker.retained topicStatus = some (asBytes "online".toList)))
    (by decide +kernel)
  exact ⟨s, hs, of_decide_eq_true hcheck, (status_iff hs).1⟩

end Jzf407
