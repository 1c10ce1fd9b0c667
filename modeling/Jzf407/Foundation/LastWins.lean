import Mathlib.Data.List.Basic
import Mathlib.Tactic.Common

/-!
# Folds of fallible updates in which the last one wins

A list of items is folded over a state by a step that may fail. If every step writes one
component of the state to a value read off the item, or leaves the component alone, then
after the fold the component holds the value of the *last* item that writes it
(`foldlM_last`).

The rest is about which folds succeed, and what they keep:

* `foldlM_invariant`: an invariant that every step keeps is kept by the fold.
* `foldlM_step_of_mem`: in a fold that succeeds every item was folded in, to some state.
* `exists_foldlM_eq_some_iff`: if the items alone decide which steps succeed, the fold succeeds
  when each of them does.

The three are stated for a step into `Option`; what the items and the states are makes no
difference.
-/

namespace Foundation

section Fold

universe u v w

variable {σ : Type u} {α : Type v} {β : Type w} {f : σ → α → Option σ}

theorem foldlM_cons_eq_some {s s' : σ} {a : α} {l : List α} :
    (a :: l).foldlM f s = some s' ↔ ∃ t, f s a = some t ∧ l.foldlM f t = some s' := by
  rw [List.foldlM_cons]
  exact Option.bind_eq_some_iff

/-- An invariant of the steps is an invariant of the fold. -/
theorem foldlM_invariant {P : σ → Prop} (hstep : ∀ s a s', f s a = some s' → P s → P s')
    {s s' : σ} {l : List α} (h : l.foldlM f s = some s') (hs : P s) : P s' := by
  induction l generalizing s with
  | nil =>
    obtain rfl : s = s' := by simpa using h
    exact hs
  | cons a l ih =>
    obtain ⟨t, hstepa, hrest⟩ := foldlM_cons_eq_some.mp h
    exact ih hrest (hstep s a t hstepa hs)

/-- Every item of a fold that succeeds is folded in. -/
theorem foldlM_step_of_mem {s s' : σ} {a : α} {l : List α} (h : l.foldlM f s = some s')
    (ha : a ∈ l) : ∃ t t', f t a = some t' := by
  induction l generalizing s with
  | nil => cases ha
  | cons b l ih =>
    obtain ⟨t, hstep, hrest⟩ := foldlM_cons_eq_some.mp h
    rcases List.mem_cons.mp ha with rfl | ha
    · exact ⟨s, t, hstep⟩
    · exact ih hrest ha

/-- **The fold succeeds when every item does**, if no state makes a difference to that. -/
theorem exists_foldlM_eq_some_iff {ok : α → Prop} (hok : ∀ s a, (∃ s', f s a = some s') ↔ ok a)
    {s : σ} {l : List α} : (∃ s', l.foldlM f s = some s') ↔ ∀ a ∈ l, ok a := by
  induction l generalizing s with
  | nil => exact iff_of_true ⟨s, rfl⟩ fun _ ha => absurd ha List.not_mem_nil
  | cons a l ih =>
    rw [List.forall_mem_cons, ← hok s a]
    constructor
    · rintro ⟨s', h⟩
      obtain ⟨t, hstep, hrest⟩ := foldlM_cons_eq_some.mp h
      exact ⟨⟨t, hstep⟩, ih.mp ⟨s', hrest⟩⟩
    · rintro ⟨⟨t, hstep⟩, hall⟩
      obtain ⟨s', hrest⟩ := ih.mpr hall
      exact ⟨s', foldlM_cons_eq_some.mpr ⟨t, hstep, hrest⟩⟩

/-- **The last one wins**: a component that each step sets to the value of the item, or
keeps, ends as the value of the last item that sets it. -/
theorem foldlM_last {γ : Type*} {proj : σ → γ} {sel : α → Option β} {val : β → γ}
    (hstep : ∀ s a s', f s a = some s' → proj s' = ((sel a).map val).getD (proj s))
    {s s' : σ} {l : List α} (h : l.foldlM f s = some s') :
    proj s' = ((l.filterMap sel).getLast?.map val).getD (proj s) := by
  induction l generalizing s with
  | nil =>
    obtain rfl : s = s' := by simpa using h
    rfl
  | cons a l ih =>
    obtain ⟨t, hstepa, hrest⟩ := foldlM_cons_eq_some.mp h
    have ht := hstep s a t hstepa
    rw [ih hrest]
    cases hsel : sel a with
    | none =>
      rw [hsel] at ht
      rw [List.filterMap_cons_none hsel, ht]
      rfl
    | some b =>
      rw [hsel] at ht
      rw [List.filterMap_cons_some hsel, List.getLast?_cons, ht]
      cases (List.filterMap sel l).getLast? <;> rfl

end Fold

end Foundation
