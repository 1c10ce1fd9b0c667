import Jzf407.Foundation.Changes
import Jzf407.Web.StreamEnd

/-!
# What a stream sends

`serveLoop` is the loop of `serve_events` with all its writes succeeding, as a function of what it
samples and of the times at which it does (`Poll`). It pushes the changes in the samples: the first
snapshot, and then each sample that differs from the one before. A keep-alive fills a turn without
a change that comes at least 15 seconds after the end of the last write (`serveEvents_spec`).

`pushed_serveEvents` says that the events are the `changes` of the samples, and `keepalive_of_mem`
what stands before a keep-alive; both go by induction on the turns, with `serveEvents_cons` for one
of them. The times are arbitrary: a turn may come late, and a write may take any time.

A stream of the two sockets runs this loop, whatever the other socket does meanwhile
(`sentOn_eq_serveEvents`). `sentOn` is what a run writes on a socket, and `OfLoop` the invariant, by
induction on the run: a sample is a turn of the loop (`OfLoop.sample`), and no other step is
(`OfLoop.other`), because the steps of the other socket and the passing of time leave the phase of
the stream alone (`frame_of_step`).
-/

namespace Jzf407

open Foundation

/-- One turn of the loop: what it samples, when it looks whether a keep-alive is due, and when a
write of this turn is flushed. -/
structure Poll where
  now : Snapshot
  ticks : ℕ
  written : ℕ
  deriving DecidableEq, Repr

/-- **The loop**, each turn with what is written in it. -/
def serveLoop (last : Snapshot) (nextKeepalive : ℕ) :
    List Poll → List (Poll × Option StreamWrite)
  | [] => []
  | p :: polls =>
      match sampleWrite last p.now nextKeepalive p.ticks with
      | some (.event now) =>
          (p, some (.event now)) :: serveLoop now (p.written + keepaliveTicks) polls
      | some .keepalive =>
          (p, some .keepalive) :: serveLoop last (p.written + keepaliveTicks) polls
      | none => (p, none) :: serveLoop last nextKeepalive polls

/-- The loop after a first event that is flushed at `written`. -/
def serveEvents (first : Snapshot) (written : ℕ) (polls : List Poll) :
    List (Poll × Option StreamWrite) :=
  serveLoop first (written + keepaliveTicks) polls

/-- The snapshot that a write pushes. -/
def StreamWrite.pushed : StreamWrite → Option Snapshot
  | .event s => some s
  | .keepalive => none

/-- The events pushed in some turns. -/
def pushed (turns : List (Poll × Option StreamWrite)) : List Snapshot :=
  turns.filterMap fun turn => turn.2.bind StreamWrite.pushed

/-- When the last write of some turns was flushed, or the first event if they wrote nothing. -/
def lastWritten (written : ℕ) (turns : List (Poll × Option StreamWrite)) : ℕ :=
  (turns.filterMap fun turn => turn.2.map fun _ => turn.1.written).getLastD written

theorem lastWritten_cons (written : ℕ) (turn : Poll × Option StreamWrite)
    (turns : List (Poll × Option StreamWrite)) :
    lastWritten written (turn :: turns) =
      lastWritten (if turn.2.isSome then turn.1.written else written) turns := by
  obtain ⟨p, _ | w⟩ := turn
  · rfl
  · exact List.getLastD_cons

/-- A keep-alive is sent when nothing has changed and the deadline has passed. -/
theorem sampleWrite_eq_keepalive_iff {last now : Snapshot} {nextKeepalive ticks : ℕ} :
    sampleWrite last now nextKeepalive ticks = some .keepalive ↔
      now = last ∧ nextKeepalive ≤ ticks := by
  unfold sampleWrite
  by_cases hsame : now = last
  · rw [if_neg (not_not_intro hsame)]
    simp [hsame]
  · rw [if_pos hsame]
    simp [hsame]

/-- **One turn**: the loop goes on from what it has sampled, and a write moves the deadline. -/
theorem serveEvents_cons (last : Snapshot) (written : ℕ) (p : Poll) (polls : List Poll) :
    serveEvents last written (p :: polls) =
      (p, sampleWrite last p.now (written + keepaliveTicks) p.ticks) :: serveEvents p.now
        (if (sampleWrite last p.now (written + keepaliveTicks) p.ticks).isSome then p.written
          else written) polls := by
  rw [serveEvents, serveLoop, serveEvents]
  by_cases hsame : p.now = last
  · by_cases hdue : written + keepaliveTicks ≤ p.ticks
    · simp [sampleWrite, hsame, hdue]
    · simp [sampleWrite, hsame, hdue]
  · simp [sampleWrite, hsame]

/-- Every turn is one of the loop. -/
theorem map_fst_serveEvents (last : Snapshot) (written : ℕ) (polls : List Poll) :
    (serveEvents last written polls).map Prod.fst = polls := by
  induction polls generalizing last written with
  | nil => rfl
  | cons p polls ih => rw [serveEvents_cons, List.map_cons, ih]

/-- A turn pushes its sample when that is a change. -/
theorem pushed_sampleWrite (last now : Snapshot) (nextKeepalive ticks : ℕ) :
    (sampleWrite last now nextKeepalive ticks).bind StreamWrite.pushed =
      if now ≠ last then some now else none := by
  unfold sampleWrite
  split
  · rfl
  split
  · rfl
  · rfl

/-- **The events are the changes** in the samples. -/
theorem pushed_serveEvents (last : Snapshot) (written : ℕ) (polls : List Poll) :
    pushed (serveEvents last written polls) = changes last (polls.map Poll.now) := by
  induction polls generalizing last written with
  | nil => rfl
  | cons p polls ih =>
    rw [serveEvents_cons, List.map_cons, changes_cons, pushed, List.filterMap_cons,
      pushed_sampleWrite]
    by_cases hsame : p.now = last
    · rw [if_neg (not_not_intro hsame), if_neg (not_not_intro hsame)]
      exact ih ..
    · rw [if_pos hsame, if_pos hsame]
      exact congrArg (p.now :: ·) (ih ..)

/-- **What a keep-alive fills**: a turn that samples what the turn before it did, and comes after
the deadline of the last write. -/
theorem keepalive_of_mem {last : Snapshot} {written : ℕ} {polls : List Poll}
    {pre post : List (Poll × Option StreamWrite)} {p : Poll}
    (h : serveEvents last written polls = pre ++ (p, some .keepalive) :: post) :
    p.now = (pre.map fun turn => turn.1.now).getLastD last ∧
      lastWritten written pre + keepaliveTicks ≤ p.ticks := by
  induction pre generalizing last written polls with
  | nil =>
    cases polls with
    | nil => cases h
    | cons q polls =>
      rw [serveEvents_cons] at h
      obtain ⟨hturn, -⟩ := List.cons.inj h
      obtain ⟨rfl, hwrite⟩ := Prod.mk.inj hturn
      exact sampleWrite_eq_keepalive_iff.mp hwrite
  | cons turn pre ih =>
    cases polls with
    | nil => cases h
    | cons q polls =>
      rw [serveEvents_cons] at h
      obtain ⟨rfl, hrest⟩ := List.cons.inj h
      rw [List.map_cons, List.getLastD_cons, lastWritten_cons]
      exact ih hrest

/-- The events of a stream: the first one is written before the loop. -/
def dataEvents (first : Snapshot) (written : ℕ) (polls : List Poll) : List Snapshot :=
  first :: pushed (serveEvents first written polls)

/-- **What the stream sends**, for any samples at any times, all writes succeeding. The events are
the first snapshot and then the samples that differ from the one just before them; no two in a row
are equal, and the last one is the latest sample. A keep-alive is sent only in a turn that samples
what the turn before it did, at least 15 seconds after the last write was flushed. -/
theorem serveEvents_spec (first : Snapshot) (written : ℕ) (polls : List Poll) :
    dataEvents first written polls = first :: changes first (polls.map Poll.now) ∧
    (dataEvents first written polls).IsChain (· ≠ ·) ∧
    (dataEvents first written polls).getLast? = (first :: polls.map Poll.now).getLast? ∧
    (serveEvents first written polls).map Prod.fst = polls ∧
    ∀ pre p post, serveEvents first written polls = pre ++ (p, some .keepalive) :: post →
      p.now = (pre.map fun turn => turn.1.now).getLastD first ∧
        lastWritten written pre + 15 * ticksPerSec ≤ p.ticks := by
  have hevents : dataEvents first written polls = first :: changes first (polls.map Poll.now) := by
    rw [dataEvents, pushed_serveEvents]
  refine ⟨hevents, ?_, ?_, map_fst_serveEvents first written polls, fun pre p post h => ?_⟩
  · rw [hevents]
    exact isChain_cons_changes first _
  · rw [hevents, List.getLast?_cons, List.getLast?_cons, ← List.getLastD_eq_getLast?,
      ← List.getLastD_eq_getLast?, getLastD_changes]
  · exact keepalive_of_mem h

/-- A keep-alive, 15 seconds after the event of a switched relay. -/
theorem serveEvents_spec_idle :
    let on : Snapshot := ⟨true, false, false, true, true⟩
    let switched : Poll := ⟨on, 150000, 150010⟩
    let idle : Poll := ⟨on, 15150010, 15150020⟩
    idle.now = on ∧
      lastWritten 0 [(switched, some (.event on))] + 15 * ticksPerSec ≤ idle.ticks := by
  have hturns : serveEvents ⟨false, false, false, true, true⟩ 0
      [⟨⟨true, false, false, true, true⟩, 150000, 150010⟩,
        ⟨⟨true, false, false, true, true⟩, 15150010, 15150020⟩] =
      [(⟨⟨true, false, false, true, true⟩, 150000, 150010⟩,
        some (.event ⟨true, false, false, true, true⟩))] ++
      (⟨⟨true, false, false, true, true⟩, 15150010, 15150020⟩, some .keepalive) :: [] := by
    decide
  exact (serveEvents_spec _ _ _).2.2.2.2 _ _ _ hturns

/-! ### A stream of the two sockets is such a loop -/

/-- What a step samples for the stream on a socket. -/
def sampleOn (k : Socket) : StreamEvent → Option Snapshot
  | .sample j now => if j = k then some now else none
  | _ => none

namespace StreamNet

variable {b : Boot} {k : Socket} {s t : StreamNet} {e : StreamEvent} {l : List StreamEvent}

/-- What a step begins to write on a socket. -/
def sendsOn (s : StreamNet) (k : Socket) (e : StreamEvent) : Option StreamWrite :=
  (s.sends e).bind fun w => if w.1 = k then some w.2 else none

/-- What a run writes on a socket. -/
def sentOn (b : Boot) (k : Socket) : StreamNet → List StreamEvent → List StreamWrite
  | _, [] => []
  | s, e :: l => (s.sendsOn k e).toList ++ ((s.step b e).map fun t => sentOn b k t l).getD []

theorem eq_of_sends {j : Socket} {w : StreamWrite} (h : s.sends e = some (j, w)) :
    (∃ now, e = .headWritten j true now) ∨ ∃ now, e = .sample j now := by
  unfold sends at h
  split at h
  · split at h
    · obtain ⟨rfl, -⟩ := Prod.mk.inj (Option.some.inj h)
      exact .inl ⟨_, rfl⟩
    · cases h
  · split at h
    · obtain ⟨w', -, hpair⟩ := Option.map_eq_some_iff.mp h
      obtain ⟨rfl, -⟩ := Prod.mk.inj hpair
      exact .inr ⟨_, rfl⟩
    · cases h
  · cases h

/-- A head ends only in a stream that is opening, a write where one is in progress, and a sample is
taken only in a wait. -/
theorem phase_of_step (h : s.step b e = some t) :
    (∀ ok now, e = .headWritten k ok now → ∃ era, s.phase k = .opening era) ∧
      (∀ ok, e = .written k ok → ∃ era last, s.phase k = .writing era last) ∧
      ∀ now, e = .sample k now →
        ∃ era last nextKeepalive due, s.phase k = .waiting era last nextKeepalive due := by
  refine ⟨?_, ?_, ?_⟩
  · rintro ok now rfl
    cases moves_of_step h with
    | headWritten hphase => exact ⟨_, hphase⟩
  · rintro ok rfl
    cases moves_of_step h with
    | written hphase => exact ⟨_, _, hphase⟩
  · rintro now rfl
    cases moves_of_step h with
    | sample hphase => exact ⟨_, _, _, _, hphase⟩

/-- The steps of other sockets, and time, leave a stream alone. -/
theorem frame_of_step (h : s.step b e = some t) (hstream : s.phase k ≠ .serving)
    (hhead : ∀ ok now, e ≠ .headWritten k ok now) (hwritten : ∀ ok, e ≠ .written k ok)
    (hsample : ∀ now, e ≠ .sample k now) :
    t.phase k = s.phase k ∧ s.sendsOn k e = none ∧ sampleOn k e = none := by
  have hother : ∀ j p, j ≠ k → (s.setPhase j p).phase k = s.phase k := by
    intro j p hj
    rcases eq_or_eq_other k j with rfl | rfl
    · exact absurd rfl hj
    · exact phase_setPhase_other s j p
  -- a write begins on a socket with the end of its head or with a sample of its own
  have hsends : s.sendsOn k e = none := by
    rw [sendsOn, Option.bind_eq_none_iff]
    rintro ⟨j, w⟩ hw
    refine if_neg ?_
    rintro rfl
    obtain ⟨now, rfl⟩ | ⟨now, rfl⟩ := eq_of_sends hw
    · exact hhead true now rfl
    · exact hsample now rfl
  cases moves_of_step h with
  | @request r atomics hphase =>
    refine ⟨?_, hsends, rfl⟩
    obtain hsame | ⟨-, rfl⟩ := phase_afterRequest s r atomics k
    · exact hsame
    · exact absurd hphase hstream
  | @headWritten j ok now =>
    have hj : j ≠ k := by
      rintro rfl
      exact hhead ok now rfl
    exact ⟨hother j _ hj, hsends, rfl⟩
  | @written j ok =>
    have hj : j ≠ k := by
      rintro rfl
      exact hwritten ok rfl
    exact ⟨hother j _ hj, hsends, rfl⟩
  | @sample j now =>
    have hj : j ≠ k := by
      rintro rfl
      exact hsample now rfl
    exact ⟨hother j _ hj, hsends, if_neg hj⟩
  | wait => exact ⟨rfl, hsends, rfl⟩

/-- A wait goes on until the stream takes a sample. -/
theorem frame_of_waiting {era nextKeepalive due : ℕ} {last : Snapshot} (h : s.step b e = some t)
    (hphase : s.phase k = .waiting era last nextKeepalive due)
    (hown : ∀ now, e ≠ .sample k now) :
    t.phase k = s.phase k ∧ s.sendsOn k e = none ∧ sampleOn k e = none := by
  obtain ⟨hopens, hflushes, -⟩ := phase_of_step (k := k) h
  refine frame_of_step h (by simp [hphase]) (fun ok now he => ?_) (fun ok he => ?_) hown
  · simpa [hphase] using hopens ok now he
  · simpa [hphase] using hflushes ok he

/-- A write goes on until it ends. -/
theorem frame_of_writing {era : ℕ} {last : Snapshot} (h : s.step b e = some t)
    (hphase : s.phase k = .writing era last) (hown : ∀ ok, e ≠ .written k ok) :
    t.phase k = s.phase k ∧ s.sendsOn k e = none ∧ sampleOn k e = none := by
  obtain ⟨hopens, -, hsamples⟩ := phase_of_step (k := k) h
  refine frame_of_step h (by simp [hphase]) (fun ok now he => ?_) hown (fun now he => ?_)
  · simpa [hphase] using hopens ok now he
  · simpa [hphase] using hsamples now he

/-- A sample of the stream is handled as a turn of the loop, and the stream goes on from it. -/
theorem sample_of_step {era nextKeepalive due : ℕ} {last now : Snapshot}
    (h : s.step b (.sample k now) = some t)
    (hphase : s.phase k = .waiting era last nextKeepalive due) :
    s.sendsOn k (.sample k now) = sampleWrite last now nextKeepalive s.ticks ∧
      t.phase k = if (sampleWrite last now nextKeepalive s.ticks).isSome then .writing era now
        else .waiting era now nextKeepalive (s.ticks + pollTicks) := by
  constructor
  · rw [sendsOn, sends, hphase]
    dsimp only
    cases sampleWrite last now nextKeepalive s.ticks with
    | none => rfl
    | some w => exact if_pos rfl
  · rw [step, hphase] at h
    dsimp only at h
    split at h
    · split at h
      · -- a changed snapshot is pushed, and is the last one from now on
        next x hwrite =>
        obtain ⟨-, rfl⟩ := (sampleWrite_eq_event_iff nextKeepalive s.ticks).mp hwrite
        obtain rfl := Option.some.inj h
        rw [hwrite]
        exact phase_setPhase_self s k _
      · -- a keep-alive, or nothing at all: the sample is the last event still
        next hwrite =>
        obtain ⟨rfl, -⟩ := sampleWrite_eq_keepalive_iff.mp hwrite
        obtain rfl := Option.some.inj h
        rw [hwrite]
        exact phase_setPhase_self s k _
      · next hwrite =>
        have hsame : now = last := by
          by_contra hne
          rw [sampleWrite, if_pos hne] at hwrite
          cases hwrite
        obtain rfl := hsame
        obtain rfl := Option.some.inj h
        rw [hwrite]
        exact phase_setPhase_self s k _
    · cases h

/-- A write that ends begins a wait, with a new deadline. -/
theorem wait_of_step {era : ℕ} {last : Snapshot} (h : s.step b (.written k true) = some t)
    (hphase : s.phase k = .writing era last) :
    t.phase k = .waiting era last (s.ticks + keepaliveTicks) (s.ticks + pollTicks) := by
  rw [step, hphase] at h
  obtain rfl := Option.some.inj h
  exact phase_setPhase_self s k _

theorem sentOn_cons (h : s.step b e = some t) (l : List StreamEvent) :
    sentOn b k s (e :: l) = (s.sendsOn k e).toList ++ sentOn b k t l := by
  rw [sentOn, h, Option.map_some, Option.getD_some]

/-- The writes of the loop for the samples of a run on a socket, after a snapshot and a write that
was flushed at `written`. -/
def OfLoop (k : Socket) (last : Snapshot) (written : ℕ) (l : List StreamEvent)
    (ws : List StreamWrite) : Prop :=
  ∃ polls, polls.map Poll.now = l.filterMap (sampleOn k) ∧
    ws = (serveEvents last written polls).filterMap Prod.snd

/-- A sample is one turn. -/
theorem OfLoop.sample {last now : Snapshot} {written ticks : ℕ} {ws : List StreamWrite}
    (flushed : ℕ)
    (h : OfLoop k now (if (sampleWrite last now (written + keepaliveTicks) ticks).isSome
      then flushed else written) l ws) :
    OfLoop k last written (.sample k now :: l)
      ((sampleWrite last now (written + keepaliveTicks) ticks).toList ++ ws) := by
  obtain ⟨polls, hpolls, rfl⟩ := h
  have hsample : sampleOn k (.sample k now) = some now := if_pos rfl
  refine ⟨⟨now, ticks, flushed⟩ :: polls, ?_, ?_⟩
  · rw [List.map_cons, hpolls, List.filterMap_cons_some hsample]
  · rw [serveEvents_cons]
    cases sampleWrite last now (written + keepaliveTicks) ticks <;> rfl

/-- Other steps are no turns. -/
theorem OfLoop.other {last : Snapshot} {written : ℕ} {ws : List StreamWrite}
    (h : OfLoop k last written l ws) (hsample : sampleOn k e = none) :
    OfLoop k last written (e :: l) ws := by
  obtain ⟨polls, hpolls, rfl⟩ := h
  exact ⟨polls, by rw [hpolls, List.filterMap_cons_none hsample], rfl⟩

/-- **A stream runs the loop**: what a run without a failing write sends on a socket is what the
loop sends for the samples taken there, from a write in progress on or from a wait on. -/
theorem sentOn_eq_of_run (hrun : (streamSystem b).Run s l t) (hok : .written k false ∉ l) :
    (∀ era last due written, s.phase k = .waiting era last (written + keepaliveTicks) due →
      OfLoop k last written l (sentOn b k s l)) ∧
    ∀ era last, s.phase k = .writing era last →
      ∃ written, OfLoop k last written l (sentOn b k s l) := by
  -- in a wait the next write of the stream is a turn; in a write the deadline is not known yet
  induction hrun with
  | nil s => exact ⟨fun _ _ _ _ _ => ⟨[], rfl, rfl⟩, fun _ _ _ => ⟨0, [], rfl, rfl⟩⟩
  | @cons s u t e l hstep _ ih =>
    rw [List.mem_cons, not_or] at hok
    obtain ⟨hwaits, hwrites⟩ := ih hok.2
    rw [sentOn_cons hstep]
    constructor
    · intro era last due written hphase
      by_cases hown : ∃ now, e = .sample k now
      · obtain ⟨now, rfl⟩ := hown
        obtain ⟨hsends, hnext⟩ := sample_of_step hstep hphase
        rw [hsends]
        -- a turn that writes goes on in the write, and one that is silent in the wait
        by_cases hwrite : (sampleWrite last now (written + keepaliveTicks) s.ticks).isSome
        · rw [if_pos hwrite] at hnext
          obtain ⟨flushed, hloop⟩ := hwrites era now hnext
          exact .sample flushed (by rwa [if_pos hwrite])
        · rw [if_neg hwrite] at hnext
          exact .sample s.ticks (by rw [if_neg hwrite]; exact hwaits era now _ written hnext)
      · obtain ⟨hsame, hsends, hsample⟩ := frame_of_waiting hstep hphase (not_exists.mp hown)
        rw [hsends]
        exact (hwaits era last due written (hsame.trans hphase)).other hsample
    · intro era last hphase
      by_cases hown : e = .written k true
      · subst hown
        exact ⟨s.ticks, (hwaits era last _ s.ticks (wait_of_step hstep hphase)).other rfl⟩
      · have hwritten : ∀ ok, e ≠ .written k ok := by
          rintro (_ | _) rfl
          · exact hok.1 rfl
          · exact hown rfl
        obtain ⟨hsame, hsends, hsample⟩ := frame_of_writing hstep hphase hwritten
        obtain ⟨written, hloop⟩ := hwrites era last (hsame.trans hphase)
        rw [hsends]
        exact ⟨written, hloop.other hsample⟩

/-- **A stream of the two sockets** sends what `serve_events` does: from the end of its head on, in
a run in which none of its writes fails, its first event and then what the loop sends for the
samples taken. -/
theorem sentOn_eq_serveEvents {first : Snapshot} (h : s.step b (.headWritten k true first) = some t)
    {u : StreamNet} (hrun : (streamSystem b).Run t l u) (hok : .written k false ∉ l) :
    ∃ written polls, polls.map Poll.now = l.filterMap (sampleOn k) ∧
      sentOn b k s (.headWritten k true first :: l) =
        .event first :: (serveEvents first written polls).filterMap Prod.snd := by
  have hhead : ∃ era, s.phase k = .opening era ∧ t.phase k = .writing era first := by
    cases moves_of_step h with
    | @headWritten _ _ _ era hphase => exact ⟨era, hphase, phase_setPhase_self s k _⟩
  obtain ⟨era, hphase, hnext⟩ := hhead
  obtain ⟨written, polls, hpolls, hsent⟩ := (sentOn_eq_of_run hrun hok).2 era first hnext
  refine ⟨written, polls, hpolls, ?_⟩
  have hsends : s.sendsOn k (.headWritten k true first) = some (.event first) := by
    rw [sendsOn, sends, hphase]
    exact if_pos rfl
  rw [sentOn_cons h, hsends, hsent]
  rfl

end StreamNet

end Jzf407
