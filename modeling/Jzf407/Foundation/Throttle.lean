import Jzf407.Foundation.Transition

/-!
# A failure counter with a lock

A throttle counts failed attempts. When `max` failures have been counted it refuses every
attempt until `window` units of time after the last failure; the first attempt after that
starts a new count. A passed attempt clears the count.

The state says how many failures are counted and when the last one was (`State`), so the system can
be implemented in two words. An attempt is checked at one time, and a failure is recorded with a
time of its own (`Attempt`): the clock is read again after the comparison that fails.

Three results describe the runs of the `system`:

* `fails_eq_streak`: the counter is the length of the current streak of failures, which a passed
  attempt cuts, and a new failure after the lock (`streak`). It never exceeds its limit
  (`fails_le`).
* `refused_of_locked`: a full counter refuses everything while the window lasts, and stays as it
  is.
* `countFailed_le`: a stretch shorter than the window without a passed attempt holds at most `max`
  failures. The stretch may begin with any count; `Within` is the invariant that carries this.
-/

namespace Foundation

namespace Throttle

/-- The failures counted, and the time of the last one. -/
structure State where
  fails : ℕ
  last : ℕ
  deriving DecidableEq, Repr

/-- What becomes of an attempt. -/
inductive Outcome
  | refused
  | passed
  | failed (time : ℕ)
  deriving DecidableEq, Repr

/-- An attempt: the time at which it is checked, and its outcome. A failure is recorded with
a time of its own. -/
structure Attempt where
  now : ℕ
  outcome : Outcome
  deriving DecidableEq, Repr

/-- Whether an attempt is refused at a time. -/
def Locked (max window : ℕ) (s : State) (now : ℕ) : Prop :=
  max ≤ s.fails ∧ now < s.last + window

/-- The count that the next failure adds to: a full one starts again. -/
def base (max n : ℕ) : ℕ := if max ≤ n then 0 else n

/-- The count after an outcome. -/
def count (max n : ℕ) : Outcome → ℕ
  | .refused => n
  | .passed => 0
  | .failed _ => base max n + 1

/-- The time of the last failure after an outcome. -/
def lastFailure (last : ℕ) : Outcome → ℕ
  | .failed time => time
  | _ => last

/-- The throttle. -/
def system (max window : ℕ) : System State Attempt where
  init s := s.fails = 0
  step s a t :=
    (a.outcome = .refused ↔ Locked max window s a.now) ∧
      t = ⟨count max s.fails a.outcome, lastFailure s.last a.outcome⟩

/-- The length of the streak of failures that a list of outcomes ends with, counted from `n`:
it is cut by a passed attempt, and by the first failure after a full count. -/
def streak (max n : ℕ) (l : List Attempt) : ℕ :=
  l.foldl (fun n a => count max n a.outcome) n

/-- Whether an outcome is a failure. -/
def Outcome.isFailed : Outcome → Bool
  | .failed _ => true
  | _ => false

/-- The number of failures in a list of attempts. -/
def countFailed (l : List Attempt) : ℕ := l.countP fun a => a.outcome.isFailed

variable {max window : ℕ} {s t : State} {a : Attempt} {l : List Attempt}

/-- **The counter is the current streak of failures.** -/
theorem fails_eq_streak (h : (system max window).Run s l t) :
    t.fails = streak max s.fails l := by
  induction h with
  | nil => rfl
  | @cons s t u a l hstep _ ih =>
    rw [ih, hstep.2]
    rfl

/-- A count stays within its limit. -/
theorem count_le (hmax : 0 < max) {n : ℕ} (hn : n ≤ max) (o : Outcome) : count max n o ≤ max := by
  cases o with
  | refused => exact hn
  | passed => exact Nat.zero_le max
  | failed time =>
    simp only [count, base]
    split <;> omega

/-- **The counter never exceeds its limit.** -/
theorem fails_le (hmax : 0 < max) (h : (system max window).Run s l t) (hs : s.fails ≤ max) :
    t.fails ≤ max := by
  refine h.invariant (P := fun s => s.fails ≤ max) ?_ hs
  rintro s a t hs ⟨-, rfl⟩
  exact count_le hmax hs a.outcome

/-- **A full counter refuses every attempt** while the window lasts, and stays as it is. -/
theorem refused_of_locked (h : (system max window).Run s l t) (hfull : max ≤ s.fails)
    (hnow : ∀ a ∈ l, a.now < s.last + window) :
    t = s ∧ ∀ a ∈ l, a.outcome = .refused := by
  induction h with
  | nil => exact ⟨rfl, by simp⟩
  | @cons s t u a l hstep _ ih =>
    have hlocked : Locked max window s a.now := ⟨hfull, hnow a List.mem_cons_self⟩
    have hrefused := hstep.1.mpr hlocked
    have ht : t = s := by rw [hstep.2, hrefused]; rfl
    subst ht
    obtain ⟨rfl, hrest⟩ := ih hfull fun b hb => hnow b (List.mem_cons_of_mem a hb)
    refine ⟨rfl, fun b hb => ?_⟩
    rcases List.mem_cons.mp hb with rfl | hb
    · exact hrefused
    · exact hrest b hb

/-- What a stretch has cost so far: its `k` failures are all in the counter, and once there
is one, the last failure is not older than the stretch. -/
private def Within (max lo k : ℕ) (s : State) : Prop :=
  k ≤ s.fails ∧ s.fails ≤ max ∧ (0 < k → lo ≤ s.last)

private theorem countFailed_le_of_within {lo k : ℕ} (hmax : 0 < max)
    (h : (system max window).Run s l t) (hk : Within max lo k s)
    (hpass : ∀ a ∈ l, a.outcome ≠ .passed)
    (hfrom : ∀ a ∈ l, ∀ time, a.outcome = .failed time → lo ≤ time)
    (hnow : ∀ a ∈ l, a.now < lo + window) : k + countFailed l ≤ max := by
  induction h generalizing k with
  | nil => exact by simpa [countFailed] using Nat.le_trans hk.1 hk.2.1
  | @cons s t u a l hstep _ ih =>
    obtain ⟨hle, hfull, hlast⟩ := hk
    obtain ⟨hlock, rfl⟩ := hstep
    have hcons : countFailed (a :: l) = countFailed l + if a.outcome.isFailed then 1 else 0 :=
      List.countP_cons
    have hrest : ∀ k', Within max lo k'
        ⟨count max s.fails a.outcome, lastFailure s.last a.outcome⟩ →
          k' + countFailed l ≤ max := fun k' hk' =>
      ih hk' (fun b hb => hpass b (List.mem_cons_of_mem a hb))
        (fun b hb => hfrom b (List.mem_cons_of_mem a hb))
        fun b hb => hnow b (List.mem_cons_of_mem a hb)
    cases ho : a.outcome with
    | passed => exact absurd ho (hpass a List.mem_cons_self)
    | refused =>
      rw [ho] at hcons hrest
      have := hrest k ⟨hle, hfull, hlast⟩
      simpa [hcons, Outcome.isFailed] using this
    | failed time =>
      rw [ho] at hcons hrest hlock
      have htime := hfrom a List.mem_cons_self time ho
      have hbefore := hnow a List.mem_cons_self
      have hopen : ¬ Locked max window s a.now := fun hlocked => by
        simpa using hlock.mpr hlocked
      -- a counter that is full during the stretch is full of older failures
      have hbase : k ≤ base max s.fails := by
        unfold base
        split
        · next hmaxle =>
          by_contra hpos
          have := hlast (by omega)
          exact hopen ⟨hmaxle, by omega⟩
        · exact hle
      have := hrest (k + 1)
        ⟨Nat.succ_le_succ hbase, count_le hmax hfull (.failed time), fun _ => htime⟩
      simp only [hcons, Outcome.isFailed, if_true]
      omega

/-- **A stretch shorter than the window without a passed attempt** holds at most `max`
failures. -/
theorem countFailed_le {lo : ℕ} (hmax : 0 < max) (h : (system max window).Run s l t)
    (hs : s.fails ≤ max) (hpass : ∀ a ∈ l, a.outcome ≠ .passed)
    (hfrom : ∀ a ∈ l, ∀ time, a.outcome = .failed time → lo ≤ time)
    (hnow : ∀ a ∈ l, a.now < lo + window) : countFailed l ≤ max := by
  have := countFailed_le_of_within (k := 0) hmax h ⟨Nat.zero_le _, hs, by simp⟩ hpass hfrom hnow
  simpa using this

end Throttle

end Foundation
