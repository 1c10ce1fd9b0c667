import Jzf407.Foundation.Transition
import Mathlib.Logic.Function.Basic

/-!
# Presence: a birth message and a last will

A broker keeps, for every topic, the last message that was published to be retained. A client
shows on a topic whether it is there: with its connection it leaves a will that says `down`, and
the first thing that it publishes says `up`. The broker publishes the will when it loses the
connection, and when the client connects anew while the broker still holds an old connection of
it.

`presence_iff` is what the pattern is for: what is retained on the topic says `up` exactly while
the broker has a connection of the client on which it has received the birth message. Other
clients may come and go and publish what they like elsewhere. A connection that the client has
long given up may live on at the broker; it is the session table that keeps its will from being
published after the birth message of the next connection.

* The broker: `Presence.Broker`, with the MQTT rules that it follows, and its two operations,
  `Presence.Broker.receive` and `Presence.Broker.lose`.
* The pattern: `Presence.Obeys` says it of one packet on one connection. Packets are not numbered;
  the broker counts those that it has received on a connection, and the pattern depends on the
  count. A packet that is neither part of the pattern nor on the topic is `Packet.Quiet`.
* The system: `Presence.system` has the broker alone as its state. Whatever delays or drops packets
  before they reach the broker is left to the system that is mapped to this one.
* The invariant: `Presence.Inv` says which connection a session of the client is on, and what is
  retained. `Inv.receive` and `Inv.lose` are its steps; a CONNECT is the hard one, since it closes
  another connection first (`Inv.takeOver`, `Inv.connect`).
-/

namespace Foundation

namespace Presence

universe u v w x

variable {ι : Type x} {κ : Type u} {τ : Type v} {π : Type w}

/-- A message to be published when a connection is lost. -/
structure Will (τ : Type v) (π : Type w) where
  topic : τ
  payload : π
  retain : Bool

/-- What a client sends. -/
inductive Packet (κ : Type u) (τ : Type v) (π : Type w)
  | connect (client : κ) (will : Will τ π)
  | publish (topic : τ) (payload : π) (retain : Bool)
  | other

/-- A connection as the broker sees it: the number of packets received, the client, and whether
it is closed. -/
structure Link (κ : Type u) where
  received : ℕ
  client : Option κ
  closed : Bool

/-- The broker: its connections, for each client the connection and the will of its session, and
for each topic what is retained.

It follows the rules of MQTT. A client has one session at most; a connection under an identifier
that is in use takes the session over, so that the old connection is closed and its will is
published (`takeOver`). The will is published, too, when the connection of the session is lost
(`lose`). Of the messages on a topic that are to be retained, the last one is (`publish`). The
packets of one connection arrive in their order. A will is published at once, without a delay
interval, and a client that takes its leave, so that its will is dropped, is not modelled. -/
structure Broker (ι : Type x) (κ : Type u) (τ : Type v) (π : Type w) where
  link : ι → Link κ
  session : κ → Option (ι × Will τ π)
  retained : τ → Option π

namespace Broker

/-- A broker that nobody has connected to. -/
def empty : Broker ι κ τ π := ⟨fun _ => ⟨0, none, false⟩, fun _ => none, fun _ => none⟩

section

variable [DecidableEq ι]

/-- Replace a connection. -/
def setLink (b : Broker ι κ τ π) (i : ι) (l : Link κ) : Broker ι κ τ π :=
  { b with link := Function.update b.link i l }

theorem link_setLink (b : Broker ι κ τ π) (i : ι) (l : Link κ) :
    (b.setLink i l).link = Function.update b.link i l := rfl

end

variable [DecidableEq τ]

/-- Publish a message. -/
def publish (b : Broker ι κ τ π) (topic : τ) (payload : π) (retain : Bool) : Broker ι κ τ π :=
  if retain then { b with retained := Function.update b.retained topic (some payload) } else b

@[simp]
theorem link_publish (b : Broker ι κ τ π) (topic : τ) (payload : π) (retain : Bool) :
    (b.publish topic payload retain).link = b.link := by
  cases retain <;> rfl

@[simp]
theorem session_publish (b : Broker ι κ τ π) (topic : τ) (payload : π) (retain : Bool) :
    (b.publish topic payload retain).session = b.session := by
  cases retain <;> rfl

/-- A message that is not to be retained, or is on another topic, retains nothing on a topic. -/
theorem retained_publish_of {t topic : τ} {retain : Bool} (h : retain = true → t ≠ topic)
    (b : Broker ι κ τ π) (payload : π) :
    (b.publish t payload retain).retained topic = b.retained topic := by
  cases retain with
  | false => rfl
  | true => exact Function.update_of_ne (h rfl).symm _ _

variable [DecidableEq ι] [DecidableEq κ]

/-- End the session of a client, and publish its will. -/
def endSession (b : Broker ι κ τ π) (c : κ) (will : Will τ π) : Broker ι κ τ π :=
  { b with session := Function.update b.session c none }.publish will.topic will.payload
    will.retain

/-- **The broker closes a connection**; if a session ends with it, the will is published. -/
def lose (b : Broker ι κ τ π) (i : ι) : Broker ι κ τ π :=
  let b' := b.setLink i { b.link i with closed := true }
  match (b.link i).client with
  | none => b'
  | some c =>
      match b.session c with
      | none => b'
      | some (j, will) => if j = i then b'.endSession c will else b'

/-- The old connection of a client that connects anew is closed. -/
def takeOver (b : Broker ι κ τ π) (c : κ) : Broker ι κ τ π :=
  match b.session c with
  | none => b
  | some (j, _) => b.lose j

/-- **The broker receives a packet.** -/
def receive (b : Broker ι κ τ π) (i : ι) : Packet κ τ π → Broker ι κ τ π
  | .connect c will =>
      let b := (b.takeOver c).setLink i ⟨1, some c, false⟩
      { b with session := Function.update b.session c (some (i, will)) }
  | .publish topic payload retain =>
      (b.setLink i { b.link i with received := (b.link i).received + 1 }).publish topic payload
        retain
  | .other => b.setLink i { b.link i with received := (b.link i).received + 1 }

theorem link_lose (b : Broker ι κ τ π) (i : ι) :
    (b.lose i).link = Function.update b.link i { b.link i with closed := true } := by
  unfold lose
  dsimp only
  split
  · rfl
  · split
    · rfl
    · split
      · rw [endSession, link_publish]
        rfl
      · rfl

/-- Closing a connection changes nothing else of the connections. -/
theorem fields_lose (b : Broker ι κ τ π) (i j : ι) :
    ((b.lose i).link j).received = (b.link j).received ∧
      ((b.lose i).link j).client = (b.link j).client ∧
      (((b.lose i).link j).closed = false ↔ (b.link j).closed = false ∧ j ≠ i) := by
  rw [link_lose]
  by_cases hji : j = i
  · subst hji
    simp
  · simp [hji]

/-- Taking over closes a connection and does nothing else to any. -/
theorem fields_takeOver (b : Broker ι κ τ π) (c : κ) (j : ι) :
    ((b.takeOver c).link j).received = (b.link j).received ∧
      ((b.takeOver c).link j).client = (b.link j).client := by
  unfold takeOver
  split
  · exact ⟨rfl, rfl⟩
  · next i _ _ => exact ⟨(b.fields_lose i j).1, (b.fields_lose i j).2.1⟩

/-- Receiving a packet on one connection leaves the client of every other one as it is. -/
theorem fields_receive_of_ne (b : Broker ι κ τ π) {i j : ι} (hji : j ≠ i) (p : Packet κ τ π) :
    ((b.receive i p).link j).received = (b.link j).received ∧
      ((b.receive i p).link j).client = (b.link j).client := by
  cases p with
  | connect c will =>
    have hlink : (b.receive i (.connect c will)).link j = (b.takeOver c).link j :=
      Function.update_of_ne hji _ _
    rw [hlink]
    exact b.fields_takeOver c j
  | publish topic payload retain =>
    rw [receive, link_publish, link_setLink, Function.update_of_ne hji]
    exact ⟨rfl, rfl⟩
  | other =>
    rw [receive, link_setLink, Function.update_of_ne hji]
    exact ⟨rfl, rfl⟩

/-- The client of a connection is that of its CONNECT. -/
theorem client_receive_connect (b : Broker ι κ τ π) (i : ι) (c : κ) (will : Will τ π) :
    ((b.receive i (.connect c will)).link i).client = some c := by
  have hlink : (b.receive i (.connect c will)).link i = ⟨1, some c, false⟩ :=
    Function.update_self ..
  rw [hlink]

end Broker

/-- What happens at the broker. -/
inductive Event (ι : Type x) (κ : Type u) (τ : Type v) (π : Type w)
  | receive (i : ι) (p : Packet κ τ π)
  | lose (i : ι)

/-- The packet retains nothing on the topic, and is no CONNECT. -/
def Packet.Quiet (topic : τ) : Packet κ τ π → Prop
  | connect _ _ => False
  | publish t _ retain => retain = true → t ≠ topic
  | other => True

theorem Packet.Quiet.ne_connect {topic : τ} {p : Packet κ τ π} (h : p.Quiet topic) (c : κ)
    (will : Will τ π) : p ≠ .connect c will := by
  rintro rfl
  exact h

/-- A packet that is no CONNECT leaves the client of its connection as it is. -/
theorem client_receive_of_ne [DecidableEq ι] [DecidableEq κ] [DecidableEq τ] {p : Packet κ τ π}
    (hp : ∀ c will, p ≠ .connect c will) (b : Broker ι κ τ π) (i : ι) :
    ((b.receive i p).link i).client = (b.link i).client := by
  cases p with
  | connect c will => exact absurd rfl (hp c will)
  | publish t payload retain =>
    rw [Broker.receive, Broker.link_publish, Broker.link_setLink, Function.update_self]
  | other => rw [Broker.receive, Broker.link_setLink, Function.update_self]

/-- **The pattern**: the first packet of a connection is a CONNECT, with the will of the client
if it is the client's; the second one of the client is its birth message; everything else leaves
the topic alone. -/
def Obeys (c : κ) (topic : τ) (up down : π) (l : Link κ) (p : Packet κ τ π) : Prop :=
  match l.received with
  | 0 => ∃ c' will, p = .connect c' will ∧ (c' = c → will = ⟨topic, down, true⟩) ∧
      (c' ≠ c → will.retain = true → will.topic ≠ topic)
  | 1 => (l.client = some c → p = .publish topic up true) ∧ (l.client ≠ some c → p.Quiet topic)
  | _ => p.Quiet topic

/-- **The broker as a system**, when clients obey the pattern. -/
def system [DecidableEq ι] [DecidableEq κ] [DecidableEq τ] (c : κ) (topic : τ) (up down : π) :
    System (Broker ι κ τ π) (Event ι κ τ π) where
  init b := b = Broker.empty
  step b e b' := match e with
    | .receive i p =>
        (b.link i).closed = false ∧ Obeys c topic up down (b.link i) p ∧ b' = b.receive i p
    | .lose i => (b.link i).closed = false ∧ b' = b.lose i

/-- **The invariant of the broker.** -/
structure Inv (c : κ) (topic : τ) (up down : π) (b : Broker ι κ τ π) : Prop where
  fresh : ∀ i, (b.link i).received = 0 → (b.link i).client = none
  link : ∀ c' i will, b.session c' = some (i, will) →
    (b.link i).client = some c' ∧ (b.link i).closed = false
  will : ∀ c' i will, b.session c' = some (i, will) →
    (c' = c → will = ⟨topic, down, true⟩) ∧ (c' ≠ c → will.retain = true → will.topic ≠ topic)
  session : ∀ i, (b.link i).client = some c → (b.link i).closed = false →
    ∃ will, b.session c = some (i, will)
  birth : b.retained topic = some up ↔
    ∃ i will, b.session c = some (i, will) ∧ 2 ≤ (b.link i).received
  value : b.retained topic = none ∨ b.retained topic = some up ∨ b.retained topic = some down

variable {c : κ} {topic : τ} {up down : π}

theorem inv_empty : Inv c topic up down (Broker.empty : Broker ι κ τ π) where
  fresh _ _ := rfl
  link _ _ _ h := by cases h
  will _ _ _ h := by cases h
  session _ h := by cases h
  birth := by simp [Broker.empty]
  value := .inl rfl

variable [DecidableEq ι]

/-- A further packet is the birth message of the client, or leaves the topic alone. -/
theorem Inv.advance {b : Broker ι κ τ π} {i : ι} (h : Inv c topic up down b)
    (hopen : (b.link i).closed = false) (hpos : (b.link i).received ≠ 0) (r : τ → Option π)
    (hr : (b.link i).client = some c ∧ (b.link i).received = 1 ∧ r topic = some up ∨
      ((b.link i).client = some c → (b.link i).received ≠ 1) ∧
        r topic = b.retained topic) :
    Inv c topic up down { b.setLink i { b.link i with received := (b.link i).received + 1 } with
      retained := r } := by
  -- only the number of packets changes on the link, so who is connected is as before
  have hlink : ∀ j, ((b.setLink i { b.link i with received := (b.link i).received + 1 }).link
      j).client = (b.link j).client ∧ ((b.setLink i { b.link i with
        received := (b.link i).received + 1 }).link j).closed = (b.link j).closed := fun j => by
    by_cases hji : j = i
    · subst hji
      simp [Broker.setLink]
    · simp [Broker.setLink, Function.update_of_ne hji]
  refine {
    fresh := fun j hj => ?_
    link := fun c₀ j w hs => ?_
    will := h.will
    session := fun j hj hopen => ?_
    birth := ?_
    value := ?_ }
  · by_cases hji : j = i
    · subst hji
      simp [Broker.setLink] at hj
    · simp only [Broker.setLink, Function.update_of_ne hji] at hj ⊢
      exact h.fresh j hj
  · exact ⟨(hlink j).1.trans (h.link c₀ j w hs).1, (hlink j).2.trans (h.link c₀ j w hs).2⟩
  · exact h.session j ((hlink j).1.symm.trans hj) ((hlink j).2.symm.trans hopen)
  · rcases hr with ⟨hclient, hone, hup⟩ | ⟨hnot, hsame⟩
    · -- the birth message: it is the second packet of the link that the session is on
      refine iff_of_true hup ?_
      obtain ⟨w, hs⟩ := h.session i hclient hopen
      refine ⟨i, w, hs, ?_⟩
      simp [Broker.setLink, hone]
    · change r topic = some up ↔ _
      -- any other packet: the link had its birth message before, or has not got it now
      rw [hsame, h.birth]
      refine exists₂_congr fun j w => and_congr_right fun hs => ?_
      by_cases hji : j = i
      · subst hji
        have := hnot (h.link c j w hs).1
        simp only [Broker.setLink, Function.update_self]
        omega
      · simp only [Broker.setLink, Function.update_of_ne hji]
  · rcases hr with ⟨-, -, hup⟩ | ⟨-, hsame⟩
    · exact .inr (.inl hup)
    · change r topic = none ∨ r topic = some up ∨ r topic = some down
      rw [hsame]
      exact h.value

variable [DecidableEq κ] [DecidableEq τ] {b : Broker ι κ τ π} {i : ι}

/-- Closing a connection with a session, or one without. -/
theorem Inv.lose_cases (h : Inv c topic up down b) (i : ι) :
    (∃ c' will, b.session c' = some (i, will) ∧
      b.lose i = (b.setLink i { b.link i with closed := true }).endSession c' will) ∨
    ((∀ c' will, b.session c' ≠ some (i, will)) ∧
      b.lose i = b.setLink i { b.link i with closed := true }) := by
  unfold Broker.lose
  dsimp only
  have hnone : ∀ {c₀}, (b.link i).client = c₀ → (∀ will, ∀ c', c₀ = some c' →
      b.session c' ≠ some (i, will)) → ∀ c' will, b.session c' ≠ some (i, will) :=
    fun hc₀ hno c' will hs => hno will c' (hc₀ ▸ (h.link c' i will hs).1) hs
  split
  · next hclient => exact .inr ⟨hnone hclient (by simp), rfl⟩
  · next c₀ hclient =>
    split
    · next hsession =>
      refine .inr ⟨hnone hclient fun will c' hc' => ?_, rfl⟩
      obtain rfl := Option.some.inj hc'
      simp [hsession]
    · next j will hsession =>
      split
      · next hji => exact .inl ⟨c₀, will, hji ▸ hsession, rfl⟩
      · next hji =>
        refine .inr ⟨hnone hclient fun will' c' hc' hs => hji ?_, rfl⟩
        obtain rfl := Option.some.inj hc'
        exact (Prod.mk.inj (Option.some.inj (hsession.symm.trans hs))).1

/-- Closing a connection ends its session and no other. -/
theorem Inv.session_lose (h : Inv c topic up down b) (i : ι) (c' : κ) (j : ι) (will : Will τ π) :
    (b.lose i).session c' = some (j, will) ↔ b.session c' = some (j, will) ∧ j ≠ i := by
  rcases h.lose_cases i with ⟨c₀, will₀, hs, hlose⟩ | ⟨hno, hlose⟩
  · have hsession : (b.lose i).session = Function.update b.session c₀ none := by
      rw [hlose, Broker.endSession, Broker.session_publish]
      rfl
    rw [hsession]
    by_cases hc : c' = c₀
    · subst hc
      rw [Function.update_self, hs]
      constructor
      · intro hnone
        cases hnone
      · rintro ⟨hsome, hne⟩
        exact absurd (Prod.mk.inj (Option.some.inj hsome)).1.symm hne
    · rw [Function.update_of_ne hc]
      refine ⟨fun hs' => ⟨hs', fun hji => hc ?_⟩, And.left⟩
      subst hji
      exact Option.some.inj ((h.link _ _ _ hs').1.symm.trans (h.link _ _ _ hs).1)
  · have hsession : (b.lose i).session = b.session := by rw [hlose]; rfl
    rw [hsession]
    exact ⟨fun hs' => ⟨hs', fun hji => hno c' will (hji ▸ hs')⟩, And.left⟩

/-- Closing the connection of the client publishes its will; any other leaves the topic alone. -/
theorem Inv.retained_lose (h : Inv c topic up down b) (i : ι) :
    (∃ will, b.session c = some (i, will)) ∧ (b.lose i).retained topic = some down ∨
      (∀ will, b.session c ≠ some (i, will)) ∧
        (b.lose i).retained topic = b.retained topic := by
  rcases h.lose_cases i with ⟨c₀, will₀, hs, hlose⟩ | ⟨hno, hlose⟩
  · rw [hlose, Broker.endSession]
    by_cases hc : c₀ = c
    · subst hc
      rw [(h.will _ _ _ hs).1 rfl]
      exact .inl ⟨⟨will₀, hs⟩, Function.update_self ..⟩
    · refine .inr ⟨fun will hs' => hc ?_, Broker.retained_publish_of ((h.will _ _ _ hs).2 hc) _ _⟩
      exact Option.some.inj ((h.link _ _ _ hs).1.symm.trans (h.link _ _ _ hs').1)
  · exact .inr ⟨fun will => hno c will, by rw [hlose]; rfl⟩

/-- **Closing a connection** keeps the invariant. -/
theorem Inv.lose (h : Inv c topic up down b) (hud : up ≠ down) (i : ι) :
    Inv c topic up down (b.lose i) where
  fresh j hj := by
    obtain ⟨hreceived, hclient, -⟩ := b.fields_lose i j
    rw [hclient]
    exact h.fresh j (hreceived ▸ hj)
  link c' j will hs := by
    obtain ⟨hs, hji⟩ := (h.session_lose i c' j will).mp hs
    obtain ⟨-, hclient, hclosed⟩ := b.fields_lose i j
    exact ⟨hclient.trans (h.link c' j will hs).1, hclosed.mpr ⟨(h.link c' j will hs).2, hji⟩⟩
  will c' j will hs := h.will c' j will ((h.session_lose i c' j will).mp hs).1
  session j hclient hclosed := by
    obtain ⟨-, hc, hcl⟩ := b.fields_lose i j
    obtain ⟨hopen, hji⟩ := hcl.mp hclosed
    obtain ⟨will, hs⟩ := h.session j (hc.symm.trans hclient) hopen
    exact ⟨will, (h.session_lose i c j will).mpr ⟨hs, hji⟩⟩
  birth := by
    rcases h.retained_lose i with ⟨⟨will, hs⟩, hdown⟩ | ⟨hno, hsame⟩
    · -- the will replaces the birth message, and no session is left that would need one
      rw [hdown]
      refine iff_of_false (fun heq => hud (Option.some.inj heq).symm) ?_
      rintro ⟨j, will', hs', -⟩
      obtain ⟨hs', hji⟩ := (h.session_lose i c j will').mp hs'
      exact hji (Prod.mk.inj (Option.some.inj (hs'.symm.trans hs))).1
    · rw [hsame, h.birth]
      refine exists₂_congr fun j will => ?_
      rw [h.session_lose, (b.fields_lose i j).1]
      exact ⟨fun ⟨hs, hle⟩ => ⟨⟨hs, fun hji => hno will (hji ▸ hs)⟩, hle⟩,
        fun ⟨⟨hs, _⟩, hle⟩ => ⟨hs, hle⟩⟩
  value := by
    rcases h.retained_lose i with ⟨-, hdown⟩ | ⟨-, hsame⟩
    · exact .inr (.inr hdown)
    · rw [hsame]
      exact h.value

/-- **Taking over** ends the old session and leaves a connection without one alone. -/
theorem Inv.takeOver (h : Inv c topic up down b) (hud : up ≠ down) (c' : κ) :
    Inv c topic up down (b.takeOver c') ∧ (b.takeOver c').session c' = none ∧
      (∀ i, (b.link i).client = none → (b.takeOver c').link i = b.link i) := by
  unfold Broker.takeOver
  split
  · next hnone => exact ⟨h, hnone, fun _ _ => rfl⟩
  · next j will hs =>
    refine ⟨h.lose hud j, Option.eq_none_iff_forall_ne_some.mpr ?_, fun i hi => ?_⟩
    · rintro ⟨k, will'⟩ hs'
      obtain ⟨hs', hne⟩ := (h.session_lose j c' k will').mp hs'
      exact hne (Prod.mk.inj (Option.some.inj (hs'.symm.trans hs))).1
    · have hij : i ≠ j := fun hij => by
        have hclient := (h.link c' j will hs).1
        rw [← hij, hi] at hclient
        cases hclient
      rw [Broker.link_lose, Function.update_of_ne hij]

/-- A connection of the client begins, or one of another client, on a new link. -/
theorem Inv.connect (h : Inv c topic up down b) (hud : up ≠ down) {c' : κ} {will : Will τ π}
    (hnew : (b.link i).received = 0) (hown : c' = c → will = ⟨topic, down, true⟩)
    (hother : c' ≠ c → will.retain = true → will.topic ≠ topic) :
    Inv c topic up down (b.receive i (.connect c' will)) := by
  have hclient := h.fresh i hnew
  obtain ⟨h₁, hnone, hlink₁⟩ := h.takeOver hud c'
  have hi := hlink₁ i hclient
  set b₁ := b.takeOver c'
  have hb : b.receive i (.connect c' will) =
      { b₁.setLink i ⟨1, some c', false⟩ with
        session := Function.update b₁.session c' (some (i, will)) } := rfl
  rw [hb]
  -- the new link has had no session
  have hfree : ∀ c₀ w, b₁.session c₀ ≠ some (i, w) := fun c₀ w hs => by
    have := (h₁.link c₀ i w hs).1
    rw [hi, hclient] at this
    cases this
  refine {
    fresh := fun j hj => ?_
    link := fun c₀ j w hs => ?_
    will := fun c₀ j w hs => ?_
    session := fun j hj hopen => ?_
    birth := ?_
    value := h₁.value }
  · by_cases hji : j = i
    · subst hji
      simp [Broker.setLink] at hj
    · simp only [Broker.setLink, Function.update_of_ne hji] at hj ⊢
      exact h₁.fresh j hj
  · by_cases hc : c₀ = c'
    · subst hc
      simp only [Function.update_self] at hs
      obtain ⟨rfl, -⟩ := Prod.mk.inj (Option.some.inj hs)
      simp [Broker.setLink]
    · simp only [Function.update_of_ne hc] at hs
      have hji : j ≠ i := fun hji => hfree c₀ w (hji ▸ hs)
      simp only [Broker.setLink, Function.update_of_ne hji]
      exact h₁.link c₀ j w hs
  · by_cases hc : c₀ = c'
    · subst hc
      simp only [Function.update_self] at hs
      obtain ⟨-, rfl⟩ := Prod.mk.inj (Option.some.inj hs)
      exact ⟨hown, hother⟩
    · simp only [Function.update_of_ne hc] at hs
      exact h₁.will c₀ j w hs
  · by_cases hji : j = i
    · subst hji
      simp only [Broker.setLink, Function.update_self] at hj ⊢
      obtain rfl := Option.some.inj hj
      exact ⟨will, by rw [Function.update_self]⟩
    · simp only [Broker.setLink, Function.update_of_ne hji] at hj hopen ⊢
      obtain ⟨w, hs⟩ := h₁.session j hj hopen
      have hc : c ≠ c' := fun hc => by
        rw [hc, hnone] at hs
        cases hs
      exact ⟨w, by rw [Function.update_of_ne hc]; exact hs⟩
  · change b₁.retained topic = some up ↔ _
    rw [h₁.birth]
    by_cases hc : c = c'
    · subst hc
      simp [hnone, Broker.setLink]
    · simp only [Function.update_of_ne hc]
      refine exists₂_congr fun j w => and_congr_right fun hs => ?_
      have hji : j ≠ i := fun hji => hfree c w (hji ▸ hs)
      simp only [Broker.setLink, Function.update_of_ne hji]

/-- **Receiving a packet** that obeys the pattern keeps the invariant. -/
theorem Inv.receive (h : Inv c topic up down b) (hud : up ≠ down) {p : Packet κ τ π}
    (hopen : (b.link i).closed = false) (hobeys : Obeys c topic up down (b.link i) p) :
    Inv c topic up down (b.receive i p) := by
  -- a quiet packet only counts
  have hquiet : (b.link i).received ≠ 0 → ((b.link i).client = some c →
      (b.link i).received ≠ 1) → p.Quiet topic → Inv c topic up down (b.receive i p) := by
    intro hpos hnot hp
    cases p with
    | connect c' will => cases hp
    | other => exact h.advance hopen hpos b.retained (.inr ⟨hnot, rfl⟩)
    | publish t payload retain =>
      cases retain with
      | false => exact h.advance hopen hpos b.retained (.inr ⟨hnot, rfl⟩)
      | true =>
        exact h.advance hopen hpos (Function.update b.retained t (some payload))
          (.inr ⟨hnot, Function.update_of_ne (hp rfl).symm _ _⟩)
  unfold Obeys at hobeys
  split at hobeys
  · next hnew =>
    obtain ⟨c', will, rfl, hown, hother⟩ := hobeys
    exact h.connect hud hnew hown hother
  · next hone =>
    by_cases hclient : (b.link i).client = some c
    · rw [hobeys.1 hclient]
      exact h.advance hopen (by omega) (Function.update b.retained topic (some up))
        (.inl ⟨hclient, hone, Function.update_self ..⟩)
    · exact hquiet (by omega) (fun hc => absurd hc hclient) (hobeys.2 hclient)
  · next h₀ h₁ => exact hquiet h₀ (fun _ => h₁) hobeys

theorem inv_of_reachable (hud : up ≠ down)
    (h : (system c topic up down).Reachable b) : Inv c topic up down b := by
  refine h.invariant (P := Inv c topic up down) ?_ ?_
  · rintro _ rfl
    exact inv_empty
  · rintro b e b' hb hstep
    cases e with
    | receive i p =>
      obtain ⟨hopen, hobeys, rfl⟩ := hstep
      exact hb.receive hud hopen hobeys
    | lose i =>
      obtain ⟨-, rfl⟩ := hstep
      exact hb.lose hud i

/-- **The broker knows whether the client is there**: what is retained on its topic is the birth
message exactly while the broker has a connection of the client on which it has received that
message, and otherwise nothing or the message of the will. -/
theorem presence_iff (hud : up ≠ down) (h : (system c topic up down).Reachable b) :
    (b.retained topic = some up ↔
      ∃ i will, b.session c = some (i, will) ∧ 2 ≤ (b.link i).received) ∧
    (b.retained topic = none ∨ b.retained topic = some up ∨ b.retained topic = some down) :=
  ⟨(inv_of_reachable hud h).birth, (inv_of_reachable hud h).value⟩

end Presence

end Foundation
