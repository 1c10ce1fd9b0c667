import Mathlib.Data.Stream.Init
import Mathlib.Tactic.Common

/-!
# The latest run of equal samples

An unbounded past is a stream of samples, the newest one first. A run is a stretch of equal
consecutive samples (`RunAt`), and the latest run of at least `n` samples is the one that ends
nearest to the present (`LatestRun`). Its level is unique (`LatestRun.unique`), and it is renewed
sample by sample: the `n` newest samples, when they are equal, are the latest run
(`RunAt.latestRun`); otherwise the latest run is the one there was before (`latestRun_cons_iff`).

A finite record of samples stands for a stream that is constant before it. A newest run that is no
longer than the record is its end (`RunAt.replicate_isSuffix`), and a longer one reaches the
constant past, so that everything recorded has the same level (`RunAt.of_append_const`).

Nothing here computes. What does is a machine that keeps a level and a count, and the two renewal
laws are what its step is compared with.
-/

namespace Foundation

universe u

variable {α : Type u} {s : Stream' α} {x v w : α} {i m n : ℕ}

/-- The `m` samples from the `i`-th newest on all have level `v`. -/
def RunAt (s : Stream' α) (i m : ℕ) (v : α) : Prop := ∀ j < m, s.get (i + j) = v

/-- **The latest run** of at least `n` equal samples has level `v`. -/
def LatestRun (n : ℕ) (s : Stream' α) (v : α) : Prop :=
  ∃ i m, n ≤ m ∧ RunAt s i m v ∧ ∀ i' m' v', n ≤ m' → RunAt s i' m' v' → i ≤ i'

theorem RunAt.mono (h : RunAt s i m v) (hn : n ≤ m) : RunAt s i n v :=
  fun j hj => h j (Nat.lt_of_lt_of_le hj hn)

theorem runAt_cons_succ : RunAt (Stream'.cons x s) (i + 1) m v ↔ RunAt s i m v := by
  refine forall₂_congr fun j _ => ?_
  rw [Nat.add_right_comm, Stream'.get_succ_cons]

/-- The level of the latest run is unique. -/
theorem LatestRun.unique (hn : 0 < n) (hv : LatestRun n s v) (hw : LatestRun n s w) : v = w := by
  obtain ⟨i, m, hm, hrun, hleast⟩ := hv
  obtain ⟨i', m', hm', hrun', hleast'⟩ := hw
  obtain rfl : i = i' :=
    Nat.le_antisymm (hleast _ _ _ hm' hrun') (hleast' _ _ _ hm hrun)
  exact (hrun 0 (Nat.lt_of_lt_of_le hn hm)).symm.trans (hrun' 0 (Nat.lt_of_lt_of_le hn hm'))

/-- **Newest samples that are equal** are the latest run. -/
theorem RunAt.latestRun (h : RunAt s 0 n v) : LatestRun n s v :=
  ⟨0, n, Nat.le_refl n, h, fun _ _ _ _ _ => Nat.zero_le _⟩

theorem latestRun_const (n : ℕ) (v : α) : LatestRun n (Stream'.const v) v :=
  RunAt.latestRun fun j _ => Stream'.get_const (0 + j) v

/-- **Newest samples that are not all equal** leave the latest run as it was. -/
theorem latestRun_cons_iff (h : ∀ w, ¬ RunAt (Stream'.cons x s) 0 n w) :
    LatestRun n (Stream'.cons x s) v ↔ LatestRun n s v := by
  constructor
  · rintro ⟨i, m, hm, hrun, hleast⟩
    cases i with
    | zero => exact (h v (hrun.mono hm)).elim
    | succ i =>
      refine ⟨i, m, hm, runAt_cons_succ.mp hrun, fun i' m' v' hm' hrun' => ?_⟩
      exact Nat.le_of_succ_le_succ (hleast (i' + 1) m' v' hm' (runAt_cons_succ.mpr hrun'))
  · rintro ⟨i, m, hm, hrun, hleast⟩
    refine ⟨i + 1, m, hm, runAt_cons_succ.mpr hrun, fun i' m' v' hm' hrun' => ?_⟩
    cases i' with
    | zero => exact (h v' (hrun'.mono hm')).elim
    | succ i' => exact Nat.succ_le_succ (hleast i' m' v' hm' (runAt_cons_succ.mp hrun'))

/-- A newest run that is no longer than the samples recorded is their end. -/
theorem RunAt.replicate_isSuffix {l : List α} (h : RunAt (l.reverse ++ₛ s) 0 m v)
    (hm : m ≤ l.length) : List.replicate m v <:+ l := by
  rw [← List.reverse_prefix, List.reverse_replicate, List.prefix_iff_eq_take,
    List.length_replicate]
  refine List.ext_getElem (by simp [hm]) fun j hj hj' => ?_
  have hlt : j < m := by simpa using hj
  have hrev : j < l.reverse.length := by
    rw [List.length_reverse]
    omega
  have hget := h j hlt
  rw [Nat.zero_add, Stream'.get_append_left _ _ _ hrev] at hget
  rw [List.getElem_replicate, List.getElem_take, hget]

/-- A newest run that is longer than the samples recorded reaches the constant past before
them, and everything has its level. -/
theorem RunAt.of_append_const {l : List α} {a : α} (h : RunAt (l ++ₛ Stream'.const a) 0 m v)
    (hm : l.length < m) : v = a ∧ ∀ k, RunAt (l ++ₛ Stream'.const a) 0 k a := by
  have hva : v = a := by
    have hget := h l.length hm
    rwa [Nat.zero_add, Stream'.get_append_length, Stream'.get_const, eq_comm] at hget
  refine ⟨hva, fun k j _ => ?_⟩
  by_cases hj : j < l.length
  · exact (h j (Nat.lt_trans hj hm)).trans hva
  · obtain ⟨d, rfl⟩ := Nat.exists_eq_add_of_le (Nat.le_of_not_lt hj)
    rw [Nat.zero_add, Stream'.get_append_right, Stream'.get_const]

end Foundation
