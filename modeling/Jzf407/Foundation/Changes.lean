import Mathlib.Data.List.Destutter

/-!
# The changes in a sequence of samples

The changes in a sequence of samples are the samples that differ from the one just before them
(`changes`). It is what an observer is told who asks again and again and hears only of news.

After a first value the changes are that value's destuttered sequence (`cons_changes`), so that
what is known of `List.destutter` holds of them: no two of them in a row are equal
(`isChain_cons_changes`), and the last of them is the latest sample (`getLastD_changes`). An
observer who is told the changes therefore knows the present value, and is never told it twice in
a row.
-/

namespace Foundation

universe u

variable {α : Type u} [DecidableEq α]

/-- **The samples that differ from the one just before them**, where `prev` is the one before the
first. -/
def changes (prev : α) (samples : List α) : List α :=
  ((prev :: samples).zip samples).filterMap fun p => if p.2 ≠ p.1 then some p.2 else none

theorem changes_cons (prev x : α) (samples : List α) :
    changes prev (x :: samples) =
      if x ≠ prev then x :: changes x samples else changes x samples := by
  unfold changes
  rw [List.zip_cons_cons, List.filterMap_cons]
  by_cases h : x ≠ prev <;> simp [h]

/-- After a first value, the changes are the destuttered sequence. -/
theorem cons_changes (first : α) (samples : List α) :
    first :: changes first samples = (first :: samples).destutter (· ≠ ·) := by
  rw [List.destutter_cons']
  induction samples generalizing first with
  | nil => rfl
  | cons x samples ih =>
    rw [changes_cons, List.destutter'_cons]
    by_cases h : x = first
    · rw [if_neg (not_not_intro h), if_neg (not_not_intro h.symm), h, ih]
    · rw [if_pos h, if_pos (Ne.symm h), ih]

/-- No two changes in a row are equal. -/
theorem isChain_cons_changes (first : α) (samples : List α) :
    (first :: changes first samples).IsChain (· ≠ ·) := by
  rw [cons_changes]
  exact List.isChain_destutter _ _

/-- The last change is the latest sample. -/
theorem getLastD_changes (first : α) (samples : List α) :
    (changes first samples).getLastD first = samples.getLastD first := by
  induction samples generalizing first with
  | nil => rfl
  | cons x samples ih =>
    rw [changes_cons, List.getLastD_cons]
    by_cases h : x = first
    · rw [if_neg (not_not_intro h), ← h, ih]
    · rw [if_pos h, List.getLastD_cons, ih]

end Foundation
