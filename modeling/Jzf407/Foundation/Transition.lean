import Mathlib.Tactic.Common

/-!
# Labelled transition systems

A `System` is a set of initial states and a labelled step relation. A run is a chain of
steps with its labels in order (`System.Run`), and a state is reachable when a run from an initial
state ends there (`System.Reachable`). An invariant is proved once for one step, and
`System.Run.invariant` carries it along runs; `System.Reachable.invariant` is the rule for what
holds initially. Runs compose and come apart where their labels do (`System.Run.append`,
`System.Run.exists_of_append`), which is how a property of two moments of a run is proved.

A condition on steps can hold `Throughout` the runs with given labels; two conditions that
agree wherever an invariant holds, and one of which carries that invariant on, hold throughout
the same runs (`System.throughout_iff`). This is the rule for a property that a program has under
a condition on what happens, when the condition is necessary, too. A system can also be restricted
to the steps that meet a condition (`System.guarded`).

A `Simulation` by an abstraction function maps steps to steps or to nothing, and therefore runs to
runs (`Simulation.run`).

A step function that decreases a measure can be iterated until no step is left (`exhaust`): then
there is none (`exhaust_stuck`), and what every step preserves holds (`exhaust_invariant`). A run
that is to be computed is given by its labels (`System.Run.of_foldlM`,
`System.Reachable.exists_of_foldlM`).
-/

namespace Foundation

universe u v u' v'

/-- A labelled transition system. -/
structure System (σ : Type u) (ε : Type v) where
  init : σ → Prop
  step : σ → ε → σ → Prop

namespace System

variable {σ : Type u} {ε : Type v} {S : System σ ε}

/-- A chain of steps from one state to another, with its labels in order. -/
inductive Run (S : System σ ε) : σ → List ε → σ → Prop
  | nil (s : σ) : Run S s [] s
  | cons {s t u : σ} {e : ε} {l : List ε} (hstep : S.step s e t) (hrest : Run S t l u) :
      Run S s (e :: l) u

/-- A state at the end of a run from an initial state. -/
def Reachable (S : System σ ε) (s : σ) : Prop := ∃ s₀ l, S.init s₀ ∧ S.Run s₀ l s

/-- Runs compose. -/
theorem Run.append {s t u : σ} {l m : List ε} (h : S.Run s l t) (h' : S.Run t m u) :
    S.Run s (l ++ m) u := by
  induction h with
  | nil => exact h'
  | cons hstep _ ih => exact .cons hstep (ih h')

/-- A run of a concatenation passes through a state between its parts. -/
theorem Run.exists_of_append {s u : σ} {l m : List ε} (h : S.Run s (l ++ m) u) :
    ∃ t, S.Run s l t ∧ S.Run t m u := by
  induction l generalizing s with
  | nil => exact ⟨s, .nil s, h⟩
  | cons e l ih =>
    cases h with
    | cons hstep hrest =>
      obtain ⟨t, hl, hm⟩ := ih hrest
      exact ⟨t, .cons hstep hl, hm⟩

/-- A function that computes steps computes runs. -/
theorem Run.of_foldlM {f : σ → ε → Option σ} (hf : ∀ s e t, f s e = some t → S.step s e t)
    {s t : σ} {l : List ε} (h : l.foldlM f s = some t) : S.Run s l t := by
  induction l generalizing s with
  | nil => exact Option.some.inj h ▸ .nil s
  | cons e l ih =>
    obtain ⟨u, hstep, hrest⟩ := Option.bind_eq_some_iff.mp h
    exact .cons (hf s e u hstep) (ih hrest)

/-- What every step preserves, every run preserves. -/
theorem Run.invariant {P : σ → Prop} (hstep : ∀ s e t, P s → S.step s e t → P t)
    {s t : σ} {l : List ε} (h : S.Run s l t) (hs : P s) : P t := by
  induction h with
  | nil => exact hs
  | cons he _ ih => exact ih (hstep _ _ _ hs he)

/-- What is reached from a reachable state is reachable. -/
theorem Reachable.run {s t : σ} {l : List ε} (h : S.Reachable s) (hrun : S.Run s l t) :
    S.Reachable t := by
  obtain ⟨s₀, m, hs₀, hs⟩ := h
  exact ⟨s₀, m ++ l, hs₀, hs.append hrun⟩

/-- What one step leads to is reachable. -/
theorem Reachable.step {s t : σ} {e : ε} (h : S.Reachable s) (he : S.step s e t) :
    S.Reachable t := h.run (.cons he (.nil t))

/-- **The invariant rule**: what holds initially and is preserved by every step holds in
every reachable state. -/
theorem Reachable.invariant {P : σ → Prop} (hinit : ∀ s, S.init s → P s)
    (hstep : ∀ s e t, P s → S.step s e t → P t) {s : σ} (h : S.Reachable s) : P s := by
  obtain ⟨s₀, l, hs₀, hrun⟩ := h
  exact hrun.invariant hstep (hinit s₀ hs₀)

/-- A computed run from an initial state ends in a reachable state, when what is computed for its
labels are steps. -/
theorem Reachable.exists_of_foldlM {f : σ → ε → Option σ} {l : List ε}
    (hf : ∀ e ∈ l, ∀ s t, f s e = some t → S.step s e t) {s₀ : σ} (hs₀ : S.init s₀)
    {P : σ → Bool} (h : (l.foldlM f s₀).any P = true) :
    ∃ s, S.Reachable s ∧ P s = true := by
  obtain ⟨s, hs, hcheck⟩ := (Option.any_eq_true P _).mp h
  refine ⟨s, ⟨s₀, l, hs₀, ?_⟩, hcheck⟩
  clear hs₀ h
  induction l generalizing s₀ with
  | nil => exact Option.some.inj hs ▸ .nil s₀
  | cons e l ih =>
    obtain ⟨u, hstep, hrest⟩ := Option.bind_eq_some_iff.mp hs
    exact .cons (hf e List.mem_cons_self s₀ u hstep)
      (ih (fun d hd => hf d (List.mem_cons_of_mem e hd)) hrest)

/-! ### Conditions on the steps of a run -/

/-- Every step that a run with these labels takes, from an initial state on, meets the
condition. -/
def Throughout (S : System σ ε) (P : σ → ε → σ → Prop) (l : List ε) : Prop :=
  ∀ l₁ e l₂ s₀ s t, l = l₁ ++ e :: l₂ → S.init s₀ → S.Run s₀ l₁ s → S.step s e t → P s e t

section Throughout

variable {P Q : σ → ε → σ → Prop} {I : σ → Prop} {l : List ε}

/-- What a condition carries on from some state of a run is carried on to every later one. -/
theorem Throughout.invariant_after (hstep : ∀ s e t, I s → S.step s e t → P s e t → I t)
    (h : S.Throughout P l) {l₁ l₂ l₃ : List ε} (hl : l = l₁ ++ (l₂ ++ l₃)) {s₀ s t : σ}
    (hs₀ : S.init s₀) (hbefore : S.Run s₀ l₁ s) (hrun : S.Run s l₂ t) (hs : I s) : I t := by
  induction hrun generalizing l₁ with
  | nil => exact hs
  | @cons s u t e l₂ he _ ih =>
    have hu : I u := hstep s e u hs he (h l₁ e (l₂ ++ l₃) s₀ s u hl hs₀ hbefore he)
    have hsplit : l = (l₁ ++ [e]) ++ (l₂ ++ l₃) := by
      rw [hl, List.append_assoc]
      rfl
    exact ih hsplit (hbefore.append (.cons he (.nil u))) hu

/-- **An invariant carried by a condition** holds in every state of a run that meets the
condition throughout. -/
theorem Throughout.invariant (hinit : ∀ s, S.init s → I s)
    (hstep : ∀ s e t, I s → S.step s e t → P s e t → I t) (h : S.Throughout P l)
    {l₁ l₂ : List ε} (hl : l = l₁ ++ l₂) {s₀ s : σ} (hs₀ : S.init s₀) (hrun : S.Run s₀ l₁ s) :
    I s :=
  h.invariant_after hstep (show l = [] ++ (l₁ ++ l₂) from hl) hs₀ (.nil s₀) hrun (hinit s₀ hs₀)

/-- What follows from the condition and the invariant that it carries holds throughout. -/
theorem Throughout.imp (hinit : ∀ s, S.init s → I s)
    (hstep : ∀ s e t, I s → S.step s e t → P s e t → I t)
    (himp : ∀ s e t, I s → S.step s e t → P s e t → Q s e t) (h : S.Throughout P l) :
    S.Throughout Q l := by
  intro l₁ e l₂ s₀ s t hl hs₀ hrun he
  exact himp s e t (h.invariant hinit hstep hl hs₀ hrun) he (h l₁ e l₂ s₀ s t hl hs₀ hrun he)

/-- **Equivalent conditions**: they agree wherever the invariant holds, and one of them
carries the invariant on. -/
theorem throughout_iff (hinit : ∀ s, S.init s → I s)
    (hstep : ∀ s e t, I s → S.step s e t → P s e t → I t)
    (hiff : ∀ s e t, I s → S.step s e t → (Q s e t ↔ P s e t)) :
    S.Throughout Q l ↔ S.Throughout P l := by
  constructor
  · refine Throughout.imp hinit (fun s e t hs he hq => ?_) fun s e t hs he => (hiff s e t hs he).mp
    exact hstep s e t hs he ((hiff s e t hs he).mp hq)
  · exact Throughout.imp hinit hstep fun s e t hs he => (hiff s e t hs he).mpr

end Throughout

/-! ### Guards -/

/-- The system restricted to the steps that meet a condition. -/
def guarded (S : System σ ε) (G : σ → ε → Prop) : System σ ε where
  init := S.init
  step s e t := G s e ∧ S.step s e t

/-- A run whose labels all meet a condition is a run of the system restricted to it. -/
theorem Run.guarded_of_forall {G : ε → Prop} {s t : σ} {l : List ε} (h : S.Run s l t)
    (hl : ∀ e ∈ l, G e) : (S.guarded fun _ e => G e).Run s l t := by
  induction h with
  | nil s => exact .nil s
  | cons he _ ih =>
    obtain ⟨hG, hrest⟩ := List.forall_mem_cons.mp hl
    exact .cons ⟨hG, he⟩ (ih hrest)

/-- A run that starts in an invariant is a run of the system restricted to it. -/
theorem Run.guarded_of_invariant {P : σ → Prop} (hstep : ∀ s e t, P s → S.step s e t → P t)
    {s t : σ} {l : List ε} (h : S.Run s l t) (hs : P s) : (S.guarded fun s _ => P s).Run s l t := by
  induction h with
  | nil s => exact .nil s
  | cons he _ ih => exact .cons ⟨hs, he⟩ (ih (hstep _ _ _ hs he))

/-! ### Simulation -/

section Simulation

variable {τ : Type u'} {δ : Type v'} {A : System τ δ}

/-- An abstraction of states and labels under which every step is a step of the abstract
system, or leaves the abstract state as it is when its label has no abstract counterpart. -/
structure Simulation (S : System σ ε) (A : System τ δ) (abs : σ → τ) (lab : ε → Option δ) :
    Prop where
  init : ∀ s, S.init s → A.init (abs s)
  step : ∀ s e t, S.step s e t → match lab e with
    | some d => A.step (abs s) d (abs t)
    | none => abs t = abs s

/-- **A simulation maps runs to runs**, dropping the labels without a counterpart. -/
theorem Simulation.run {abs : σ → τ} {lab : ε → Option δ} (h : Simulation S A abs lab)
    {s t : σ} {l : List ε} (hrun : S.Run s l t) :
    A.Run (abs s) (l.filterMap lab) (abs t) := by
  induction hrun with
  | nil s => exact .nil (abs s)
  | @cons s t u e l hstep _ ih =>
    have hsim := h.step s e t hstep
    cases hlab : lab e with
    | none =>
      rw [hlab] at hsim
      rw [List.filterMap_cons_none hlab]
      rwa [hsim] at ih
    | some d =>
      rw [hlab] at hsim
      rw [List.filterMap_cons_some hlab]
      exact .cons hsim ih

end Simulation

end System

/-! ### Running until no step is left -/

section Exhaust

variable {σ : Type u} {f : σ → Option σ} {μ : σ → ℕ}

/-- Take steps until there is none. -/
def exhaust (f : σ → Option σ) (μ : σ → ℕ) (hμ : ∀ s t, f s = some t → μ t < μ s) (s : σ) : σ :=
  match hs : f s with
  | none => s
  | some t =>
    have : μ t < μ s := hμ s t hs
    exhaust f μ hμ t
termination_by μ s

variable (hμ : ∀ s t, f s = some t → μ t < μ s)

theorem exhaust_of_none {s : σ} (h : f s = none) : exhaust f μ hμ s = s := by
  rw [exhaust]
  split
  · rfl
  · next t ht => rw [h] at ht; cases ht

theorem exhaust_of_some {s t : σ} (h : f s = some t) : exhaust f μ hμ s = exhaust f μ hμ t := by
  rw [exhaust]
  split
  · next hnone => rw [h] at hnone; cases hnone
  · next u hu => rw [Option.some.inj (h.symm.trans hu)]

/-- Afterwards there is no step. -/
theorem exhaust_stuck (s : σ) : f (exhaust f μ hμ s) = none := by
  induction s using exhaust.induct f μ hμ with
  | case1 s h => rw [exhaust_of_none hμ h, h]
  | case2 s t h _ ih => rw [exhaust_of_some hμ h, ih]

/-- **What every step preserves** holds afterwards. -/
theorem exhaust_invariant {P : σ → Prop} (hstep : ∀ s t, P s → f s = some t → P t) {s : σ}
    (hs : P s) : P (exhaust f μ hμ s) := by
  induction s using exhaust.induct f μ hμ with
  | case1 s h => rwa [exhaust_of_none hμ h]
  | case2 s t h _ ih =>
    rw [exhaust_of_some hμ h]
    exact ih (hstep s t hs h)

end Exhaust

end Foundation
