import Mathlib.Data.List.Basic
import Mathlib.Tactic.Common

/-!
# A preamble, then blocks

A party of a protocol often says a fixed sequence of things first and then, in any order and as
often as it likes, blocks of a given kind. `Preamble.At` says what its log is at each stage
(`Preamble.Stage`): a part of the preamble of known length, the whole preamble and some blocks
(`Preamble.Opened`), or, once it has stopped, one of these. The log is then always an initial
piece of a legal conversation (`Preamble.At.legal`).

A program shows that its log is `At` a stage step by step, and there are only four kinds of steps:
the next item of the preamble (`Preamble.At.next`), its end (`Preamble.At.enter`), a further block
(`Preamble.At.block`), and the end of the conversation, which may come at any stage
(`Preamble.At.close`).

What can be told of a legal log from the preamble and the blocks alone is here, too:
`Preamble.Legal.forall` for what holds of each item, and `Preamble.Legal.countP_eq` for two kinds of
items that come in equal numbers.
-/

namespace Foundation

namespace Preamble

universe u

variable {α : Type u}

/-- How far a conversation has come. -/
inductive Stage
  | opening (n : ℕ)
  | running
  | closed
  deriving DecidableEq, Repr

/-- The whole preamble, and blocks after it. -/
def Opened (pre : List α) (Block : List α → Prop) (l : List α) : Prop :=
  ∃ blocks : List (List α), l = pre ++ blocks.flatten ∧ ∀ b ∈ blocks, Block b

/-- **A legal log**: a beginning of the preamble, or all of it and blocks. -/
def Legal (pre : List α) (Block : List α → Prop) (l : List α) : Prop :=
  l <+: pre ∨ Opened pre Block l

/-- What the log is at a stage. -/
def At (pre : List α) (Block : List α → Prop) : Stage → List α → Prop
  | .opening n, l => l = pre.take n
  | .running, l => Opened pre Block l
  | .closed, l => Legal pre Block l

variable {pre l : List α} {Block : List α → Prop} {s : Stage} {n : ℕ}

theorem At.legal (h : At pre Block s l) : Legal pre Block l := by
  cases s with
  | opening n => exact .inl (h ▸ List.take_prefix n pre)
  | running => exact .inr h
  | closed => exact h

/-- The next item of the preamble. -/
theorem At.next {a : α} (h : At pre Block (.opening n) l) (ha : pre[n]? = some a) :
    At pre Block (.opening (n + 1)) (l ++ [a]) := by
  obtain ⟨hlt, rfl⟩ := List.getElem?_eq_some_iff.mp ha
  rw [At, h, List.take_succ_eq_append_getElem hlt]

/-- The end of the preamble. -/
theorem At.enter (h : At pre Block (.opening n) l) (hn : pre.length ≤ n) :
    At pre Block .running l :=
  ⟨[], by rw [h, List.take_of_length_le hn, List.flatten_nil, List.append_nil], by simp⟩

/-- A block. -/
theorem At.block {b : List α} (h : At pre Block .running l) (hb : Block b) :
    At pre Block .running (l ++ b) := by
  obtain ⟨blocks, rfl, hblocks⟩ := h
  refine ⟨blocks ++ [b], by simp, fun c hc => ?_⟩
  rcases List.mem_append.mp hc with hc | hc
  · exact hblocks c hc
  · exact List.mem_singleton.mp hc ▸ hb

/-- The end of the conversation, at any stage. -/
theorem At.close (h : At pre Block s l) : At pre Block .closed l := h.legal

/-- What holds of every item of the preamble and of every block holds of a legal log. -/
theorem Legal.forall {P : α → Prop} (h : Legal pre Block l) (hpre : ∀ a ∈ pre, P a)
    (hblock : ∀ b, Block b → ∀ a ∈ b, P a) : ∀ a ∈ l, P a := by
  intro a ha
  rcases h with h | ⟨blocks, rfl, hblocks⟩
  · exact hpre a (h.subset ha)
  · rcases List.mem_append.mp ha with ha | ha
    · exact hpre a ha
    · obtain ⟨b, hb, hab⟩ := List.mem_flatten.mp ha
      exact hblock b (hblocks b hb) a hab

/-- Two kinds of items that are absent from the preamble, and equally frequent in every block,
are equally frequent in a legal log. -/
theorem Legal.countP_eq {p q : α → Bool} (h : Legal pre Block l)
    (hpre : ∀ a ∈ pre, p a = false ∧ q a = false)
    (hblock : ∀ b, Block b → b.countP p = b.countP q) : l.countP p = l.countP q := by
  have hnone : ∀ m : List α, (∀ a ∈ m, a ∈ pre) → m.countP p = 0 ∧ m.countP q = 0 := fun m hm =>
    ⟨List.countP_eq_zero.mpr fun a ha => by simp [(hpre a (hm a ha)).1],
      List.countP_eq_zero.mpr fun a ha => by simp [(hpre a (hm a ha)).2]⟩
  rcases h with h | ⟨blocks, rfl, hblocks⟩
  · obtain ⟨hp, hq⟩ := hnone l fun a ha => h.subset ha
    rw [hp, hq]
  · obtain ⟨hp, hq⟩ := hnone pre fun a ha => ha
    rw [List.countP_append, List.countP_append, hp, hq, List.countP_flatten, List.countP_flatten]
    exact congrArg (0 + List.sum ·) (List.map_congr_left fun b hb => hblock b (hblocks b hb))

end Preamble

end Foundation
