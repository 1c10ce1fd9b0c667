import Mathlib.Data.List.Chain
import Mathlib.Tactic.Common

/-!
# Times that keep their distance

A list of times is `Spaced` by a gap when each of them is at least the gap after the one
before. A further time may follow when it is far enough from the last one (`Spaced.concat`), so a
program keeps its times spaced by looking at the last one only; every two of them are then at
least a gap apart (`Spaced.add_le`).

Within a stretch of time there is room for one time more than gaps fit into it
(`Spaced.length_mul_le`). Some of the times, in order, are spaced as well (`Spaced.sublist`),
and so any stretch of a longer list is counted in the same way (`Spaced.countP_mul_le`). Rates are
stated as products, so that nothing has to be divided or rounded.
-/

namespace Foundation

variable {gap t : ℕ} {l : List ℕ}

/-- Every time is at least `gap` after the one before. -/
def Spaced (gap : ℕ) (l : List ℕ) : Prop := l.IsChain fun a b => a + gap ≤ b

theorem Spaced.nil : Spaced gap [] := List.isChain_nil

/-- A time that is far enough from the last one can follow. -/
theorem Spaced.concat (h : Spaced gap l) (hlast : ∀ a ∈ l.getLast?, a + gap ≤ t) :
    Spaced gap (l ++ [t]) :=
  List.IsChain.append h (List.isChain_singleton t) fun a ha b hb => by
    obtain rfl : t = b := by simpa using hb
    exact hlast a ha

instance transGap (gap : ℕ) : Trans (fun a b : ℕ => a + gap ≤ b) (fun a b => a + gap ≤ b)
    (fun a b => a + gap ≤ b) :=
  ⟨fun hab hbc => hab.trans ((Nat.le_add_right _ gap).trans hbc)⟩

/-- Every later time is at least a gap after the first. -/
theorem Spaced.add_le {a c : ℕ} (h : Spaced gap (a :: l)) (hc : c ∈ l) : a + gap ≤ c :=
  List.IsChain.rel_cons (R := fun a b => a + gap ≤ b) h hc

/-- Some of the times, in order, are spaced as well. -/
theorem Spaced.sublist {l' : List ℕ} (h : Spaced gap l) (hsub : l'.Sublist l) : Spaced gap l' :=
  List.IsChain.sublist h hsub

/-- **Spaced times take room**: from `lo` to `hi` there is at most one time more than gaps fit
between. -/
theorem Spaced.length_mul_le (h : Spaced gap l) {lo hi : ℕ} (hlo : ∀ a ∈ l, lo ≤ a)
    (hhi : ∀ a ∈ l, a ≤ hi) (hle : lo ≤ hi) : lo + l.length * gap ≤ hi + gap := by
  induction l generalizing lo with
  | nil => simpa using Nat.le_add_right_of_le hle
  | cons a l ih =>
    have ha : lo ≤ a ∧ a ≤ hi := ⟨hlo a List.mem_cons_self, hhi a List.mem_cons_self⟩
    rw [List.length_cons, Nat.succ_mul]
    -- the rest starts a gap later
    have hfrom : ∀ c ∈ l, lo + gap ≤ c := fun c hc =>
      (Nat.add_le_add_right ha.1 gap).trans (h.add_le hc)
    by_cases hroom : lo + gap ≤ hi
    · have := ih (List.IsChain.tail h) hfrom (fun c hc => hhi c (List.mem_cons_of_mem a hc)) hroom
      omega
    · have hnil : l = [] := List.eq_nil_iff_forall_not_mem.mpr fun c hc =>
        hroom ((hfrom c hc).trans (hhi c (List.mem_cons_of_mem a hc)))
      rw [hnil, List.length_nil]
      omega

/-- **Any stretch of time** holds at most one time more than gaps fit into it. -/
theorem Spaced.countP_mul_le (h : Spaced gap l) {lo hi : ℕ} (hle : lo ≤ hi) :
    lo + l.countP (fun a => decide (lo ≤ a ∧ a ≤ hi)) * gap ≤ hi + gap := by
  rw [List.countP_eq_length_filter]
  refine (h.sublist List.filter_sublist).length_mul_le (fun a ha => ?_) (fun a ha => ?_) hle
  · exact (of_decide_eq_true (List.mem_filter.mp ha).2).1
  · exact (of_decide_eq_true (List.mem_filter.mp ha).2).2

end Foundation
