import Jzf407.Foundation.Runs
import Jzf407.Foundation.Text
import Mathlib.Data.List.Induction

/-!
# The debouncer

`Debouncer` of `debouncer.rs` shifts its samples into a byte and looks at the four newest of
them (`stableMask`): when they are equal and differ from the stable level, the level changes and an
edge is reported (`Debouncer.update`).

The byte holds the eight newest samples, where the samples before the first one count as the
initial level, and the stable level is that of the latest run of four equal samples
(`Debouncer.Tracks`, over the stream `past`). One update preserves this (`Tracks.update`), and
therefore it holds after any samples (`tracks_feed`). The comparison of the masked byte is tied to
the samples once, by `Holds.window`, and `update_cases` is all that is used of an update
afterwards.

`debouncer_spec` is what follows for the edges: the state is the level of the latest run, an edge
is reported exactly when it changes, and it names the new level. Edges therefore alternate
(`isChain_edges`), and each of them ends four samples that were really taken, not supposed before
the first (`replicate_isSuffix_of_update`).
-/

namespace Jzf407

open Foundation

/-- How many equal samples make a level stable. -/
def stableCount : UInt8 := 4

/-- The mask of the samples looked at. -/
def stableMask : UInt8 := (((1 : UInt16) <<< stableCount.toUInt16) - 1).toUInt8

/-- A change of the stable level. -/
inductive Edge
  | rising
  | falling
  deriving DecidableEq, Repr

/-- The level that an edge leads to. -/
def Edge.level : Edge → Bool
  | .rising => true
  | .falling => false

/-- The samples, the newest one in bit 0, and the stable level. -/
structure Debouncer where
  history : UInt8
  stable : Bool
  deriving DecidableEq, Repr

namespace Debouncer

/-- A debouncer that has always seen the initial level. -/
def new (initial : Bool) : Debouncer where
  history := if initial then 0xFF else 0x00
  stable := initial

/-- Take one sample. -/
def update (d : Debouncer) (raw : Bool) : Debouncer × Option Edge :=
  let history := (d.history <<< 1) ||| raw.toUInt8
  let window := history &&& stableMask
  let allOnes := window == stableMask
  let allZeros := window == 0
  if allOnes && !d.stable then (⟨history, true⟩, some .rising)
  else if allZeros && d.stable then (⟨history, false⟩, some .falling)
  else (⟨history, d.stable⟩, none)

/-- The stable level. -/
def state (d : Debouncer) : Bool := d.stable

/-- The debouncer after some samples. -/
def feed (d : Debouncer) (samples : List Bool) : Debouncer :=
  samples.foldl (fun d raw => (d.update raw).1) d

/-- The edges that some samples produce. -/
def edges (d : Debouncer) : List Bool → List Edge
  | [] => []
  | raw :: samples => (d.update raw).2.toList ++ edges (d.update raw).1 samples

/-- The samples so far, the newest one first, after an unbounded run of the initial level. -/
def past (initial : Bool) (samples : List Bool) : Stream' Bool :=
  samples.reverse ++ₛ Stream'.const initial

/-! ### The window -/

private theorem shift_check : ∀ b : UInt8,
    (∀ raw : Bool, ((b <<< 1) ||| raw.toUInt8).toNat.testBit 0 = raw) ∧
      ∀ raw : Bool, ∀ j < 7,
        ((b <<< 1) ||| raw.toUInt8).toNat.testBit (j + 1) = b.toNat.testBit j :=
  forall_byte (by decide +kernel)

private theorem window_check : ∀ b : UInt8,
    ((b &&& stableMask == stableMask) = true ↔ ∀ j < 4, b.toNat.testBit j = true) ∧
      ((b &&& stableMask == 0) = true ↔ ∀ j < 4, b.toNat.testBit j = false) :=
  forall_byte (by decide +kernel)

/-- The history holds the newest samples of a past. -/
def Holds (history : UInt8) (s : Stream' Bool) : Prop :=
  ∀ j < 8, history.toNat.testBit j = s.get j

theorem Holds.shift {history : UInt8} {s : Stream' Bool} (h : Holds history s) (raw : Bool) :
    Holds ((history <<< 1) ||| raw.toUInt8) (Stream'.cons raw s) := by
  obtain ⟨hnewest, hrest⟩ := shift_check history
  intro j hj
  cases j with
  | zero => exact hnewest raw
  | succ j =>
    rw [hrest raw j (by omega), h j (by omega), Stream'.get_succ_cons]

/-- The window is all ones when the four newest samples are high, and all zeros when they are
low. -/
theorem Holds.window {history : UInt8} {s : Stream' Bool} (h : Holds history s) :
    ((history &&& stableMask == stableMask) = true ↔ RunAt s 0 4 true) ∧
      ((history &&& stableMask == 0) = true ↔ RunAt s 0 4 false) := by
  obtain ⟨hones, hzeros⟩ := window_check history
  have hrun : ∀ v, (∀ j < 4, history.toNat.testBit j = v) ↔ RunAt s 0 4 v := by
    refine fun v => forall₂_congr fun j hj => ?_
    rw [h j (by omega), Nat.zero_add]
  exact ⟨hones.trans (hrun true), hzeros.trans (hrun false)⟩

/-! ### The invariant -/

/-- **The debouncer tracks a past**: it holds the newest samples, and its level is that of the
latest run of four. -/
structure Tracks (d : Debouncer) (s : Stream' Bool) : Prop where
  holds : Holds d.history s
  stable : LatestRun 4 s d.stable

theorem tracks_new (initial : Bool) : (new initial).Tracks (Stream'.const initial) where
  holds := by
    have hbits : ∀ j < 8, (new initial).history.toNat.testBit j = initial := by
      cases initial <;> decide
    intro j hj
    rw [hbits j hj, Stream'.get_const]
  stable := latestRun_const 4 initial

/-- **What an update does**: it changes the level, and reports so, when the four newest samples
have the other one; otherwise it keeps the level and reports nothing. -/
theorem update_cases {d : Debouncer} {s : Stream' Bool} (h : d.Tracks s) (raw : Bool) :
    (∃ e : Edge, e.level = !d.stable ∧ RunAt (Stream'.cons raw s) 0 4 e.level ∧
        d.update raw = (⟨(d.history <<< 1) ||| raw.toUInt8, e.level⟩, some e)) ∨
      (¬ RunAt (Stream'.cons raw s) 0 4 (!d.stable) ∧
        d.update raw = (⟨(d.history <<< 1) ||| raw.toUInt8, d.stable⟩, none)) := by
  obtain ⟨hones, hzeros⟩ := (h.holds.shift raw).window
  rcases hstable : d.stable with - | -
  · by_cases hrun : RunAt (Stream'.cons raw s) 0 4 true
    · exact .inl ⟨.rising, rfl, hrun, by simp [update, hstable, hones.mpr hrun, Edge.level]⟩
    · refine .inr ⟨hrun, ?_⟩
      simp [update, hstable, Bool.eq_false_iff.mpr (mt hones.mp hrun)]
  · by_cases hrun : RunAt (Stream'.cons raw s) 0 4 false
    · exact .inl ⟨.falling, rfl, hrun, by simp [update, hstable, hzeros.mpr hrun, Edge.level]⟩
    · refine .inr ⟨hrun, ?_⟩
      simp [update, hstable, Bool.eq_false_iff.mpr (mt hzeros.mp hrun)]

/-- **One update** keeps track. -/
theorem Tracks.update {d : Debouncer} {s : Stream' Bool} (h : d.Tracks s) (raw : Bool) :
    (d.update raw).1.Tracks (Stream'.cons raw s) := by
  rcases update_cases h raw with ⟨e, -, hrun, hupdate⟩ | ⟨hrun, hupdate⟩
  · rw [hupdate]
    exact ⟨h.holds.shift raw, hrun.latestRun⟩
  · rw [hupdate]
    refine ⟨h.holds.shift raw, ?_⟩
    -- four equal newest samples would have the stable level, and change nothing
    by_cases hsame : RunAt (Stream'.cons raw s) 0 4 d.stable
    · exact hsame.latestRun
    · refine (latestRun_cons_iff fun w hw => ?_).mpr h.stable
      rcases Bool.eq_or_eq_not w d.stable with rfl | rfl
      · exact hsame hw
      · exact hrun hw

theorem past_concat (initial : Bool) (samples : List Bool) (raw : Bool) :
    past initial (samples ++ [raw]) = Stream'.cons raw (past initial samples) := by
  rw [past, List.reverse_concat, Stream'.cons_append_stream, past]

theorem feed_concat (d : Debouncer) (samples : List Bool) (raw : Bool) :
    d.feed (samples ++ [raw]) = ((d.feed samples).update raw).1 := by
  rw [feed, List.foldl_append]
  rfl

/-- **After any samples** the debouncer tracks them. -/
theorem tracks_feed (initial : Bool) (samples : List Bool) :
    ((new initial).feed samples).Tracks (past initial samples) := by
  induction samples using List.reverseRecOn with
  | nil => exact tracks_new initial
  | append_singleton samples raw ih =>
    rw [past_concat, feed_concat]
    exact ih.update raw

/-! ### Edges -/

/-- The level after an update is that of the edge reported, if there is one. -/
theorem update_stable (d : Debouncer) (raw : Bool) :
    (d.update raw).1.stable = ((d.update raw).2.map Edge.level).getD d.stable := by
  unfold update
  dsimp only
  split
  · rfl
  split
  · rfl
  · rfl

/-- An edge leads away from the level before. -/
theorem level_ne_of_update {d : Debouncer} {raw : Bool} {e : Edge}
    (h : (d.update raw).2 = some e) : d.stable ≠ e.level := by
  unfold update at h
  dsimp only at h
  split at h
  · next hrise =>
    obtain rfl : Edge.rising = e := Option.some.inj h
    simpa [Edge.level] using (Bool.and_eq_true_iff.mp hrise).2
  split at h
  · next hfall =>
    obtain rfl : Edge.falling = e := Option.some.inj h
    simpa [Edge.level] using (Bool.and_eq_true_iff.mp hfall).2
  · cases h

/-- **An edge is reported exactly when the level changes**, and it names the new level. -/
theorem update_edge_iff (d : Debouncer) (raw : Bool) (e : Edge) :
    (d.update raw).2 = some e ↔ d.state = !e.level ∧ (d.update raw).1.state = e.level := by
  have hstable := update_stable d raw
  unfold state
  constructor
  · intro h
    rw [h, Option.map_some, Option.getD_some] at hstable
    exact ⟨Bool.eq_not.mpr (level_ne_of_update h), hstable⟩
  · rintro ⟨hbefore, hafter⟩
    rw [hafter, hbefore] at hstable
    cases hedge : (d.update raw).2 with
    | none => simp [hedge] at hstable
    | some e' =>
      rw [hedge, Option.map_some, Option.getD_some] at hstable
      cases e <;> cases e' <;> first | rfl | cases hstable

/-- **Edges alternate**, beginning with the one that leads away from the level before. -/
theorem isChain_edges (d : Debouncer) (samples : List Bool) :
    (d.stable :: (d.edges samples).map Edge.level).IsChain (· ≠ ·) := by
  induction samples generalizing d with
  | nil => exact .singleton _
  | cons raw samples ih =>
    have hrest := ih (d.update raw).1
    rw [update_stable] at hrest
    rw [edges]
    cases hedge : (d.update raw).2 with
    | none =>
      rw [hedge] at hrest
      exact hrest
    | some e =>
      rw [hedge] at hrest
      exact .cons_cons (level_ne_of_update hedge) hrest

/-- **An edge ends four actual samples of its level.** -/
theorem replicate_isSuffix_of_update {initial raw : Bool} {samples : List Bool} {e : Edge}
    (h : (((new initial).feed samples).update raw).2 = some e) :
    List.replicate 4 e.level <:+ samples ++ [raw] := by
  have htracks := tracks_feed initial samples
  have hne := level_ne_of_update h
  have hrun : RunAt (past initial (samples ++ [raw])) 0 4 e.level := by
    rw [past_concat]
    rcases update_cases htracks raw with ⟨e', -, hrun, hupdate⟩ | ⟨-, hupdate⟩
    · rw [hupdate] at h
      rwa [← Option.some.inj h]
    · rw [hupdate] at h
      cases h
  by_cases hlen : 4 ≤ (samples ++ [raw]).length
  · exact hrun.replicate_isSuffix hlen
  · -- a run that reaches back before the first sample has the initial level, and is not new
    exfalso
    obtain ⟨hlevel, hall⟩ := hrun.of_append_const (by rw [List.length_reverse]; omega)
    have hbefore : RunAt (past initial samples) 0 4 initial := by
      intro j hj
      have hget := hall 5 (j + 1) (by omega)
      change (past initial (samples ++ [raw])).get _ = _ at hget
      rwa [past_concat, ← Nat.add_assoc, Stream'.get_succ_cons] at hget
    have hstable := htracks.stable.unique (by decide) hbefore.latestRun
    exact hne (hstable.trans hlevel.symm)

/-- **The debouncer**: its state is the level of the latest run of four equal samples, an edge
is reported exactly when the state changes to its level, the edges alternate, beginning with
the one that leads away from the initial level, and each ends four actual samples of its
level. -/
theorem debouncer_spec (initial : Bool) :
    (∀ samples, LatestRun stableCount.toNat (past initial samples)
      ((new initial).feed samples).state) ∧
    (∀ samples raw e, (((new initial).feed samples).update raw).2 = some e ↔
      ((new initial).feed samples).state = !e.level ∧
        ((new initial).feed (samples ++ [raw])).state = e.level) ∧
    (∀ samples, (initial :: ((new initial).edges samples).map Edge.level).IsChain (· ≠ ·)) ∧
    ∀ samples raw e, (((new initial).feed samples).update raw).2 = some e →
      List.replicate stableCount.toNat e.level <:+ samples ++ [raw] := by
  refine ⟨fun samples => (tracks_feed initial samples).stable, fun samples raw e => ?_,
    fun samples => isChain_edges (new initial) samples, fun samples raw e h => ?_⟩
  · rw [feed_concat]
    exact update_edge_iff _ raw e
  · exact replicate_isSuffix_of_update h

/-- The fourth of four high samples is a rising edge. -/
theorem debouncer_spec_rising :
    List.replicate stableCount.toNat true <:+ [false, true, true, true] ++ [true] :=
  (debouncer_spec false).2.2.2 [false, true, true, true] true .rising (by decide)

end Debouncer

end Jzf407
