import Jzf407.Foundation.Transition

/-!
# One lease with an idle limit

At most one lease exists at a time: a token, and the time of its last use (`Holder`). A `Visit`
presents a token or none. It is accepted iff it presents the token of the lease within `ttl` of its
last use (`Live`), and it may then slide the limit or release the lease; a visit that presents the
token later removes the lease; a visit that is not accepted may be granted a new lease, which
replaces any other (`Action`).

`next` is the lease after a visit: first the check (`check`), whose three cases are
`check_of_live`, `check_of_late` and `check_of_ne`, and then what the visit does beyond being
checked. `system` lets visits follow each other. Nothing there makes the times grow; a result that
needs this asks for it.

A token is dead when no lease carries it or its idle limit has passed (`Dead`). A dead token is
never accepted (`Dead.not_live`), and stays dead until it is granted again (`Dead.next`). This is
all that a proof needs which follows one token through a run: it dies once, at the end of its lease
or by a later lease, and after that only a grant of the very same token matters.
-/

namespace Foundation

namespace Lease

universe u

variable {τ : Type u}

/-- A lease: its token, and the time of its last use. -/
structure Holder (τ : Type u) where
  token : τ
  last : ℕ
  deriving DecidableEq, Repr

/-- What a visit does to the lease beyond being checked. -/
inductive Action (τ : Type u)
  | pass
  | grant (holder : Option (Holder τ))
  | release

/-- A visit: its time, the token it presents, whether it slides the idle limit when it is
accepted, whether it was accepted, and what else it did. -/
structure Visit (τ : Type u) where
  now : ℕ
  presented : Option τ
  refreshes : Bool
  accepted : Bool
  action : Action τ

/-- The visit presents the token of the lease within its idle limit. -/
def Live (ttl : ℕ) (s : Option (Holder τ)) (v : Visit τ) : Prop :=
  ∃ x, s = some x ∧ v.presented = some x.token ∧ v.now ≤ x.last + ttl

/-- The lease after a visit is checked: removed when its token comes too late, used when it
comes in time, and untouched by any other token. -/
def check [DecidableEq τ] (ttl : ℕ) (s : Option (Holder τ)) (v : Visit τ) : Option (Holder τ) :=
  s.bind fun x =>
    if v.presented = some x.token then
      if v.now ≤ x.last + ttl then some ⟨x.token, if v.refreshes then v.now else x.last⟩ else none
    else some x

/-- The lease after a visit. -/
def next [DecidableEq τ] (ttl : ℕ) (s : Option (Holder τ)) (v : Visit τ) : Option (Holder τ) :=
  match v.action with
  | .pass => check ttl s v
  | .grant holder => holder
  | .release => none

/-- **The lease as a system**: a visit is accepted iff it is live, only an unaccepted visit is
granted a lease, and only an accepted one releases it. -/
def system [DecidableEq τ] (ttl : ℕ) : System (Option (Holder τ)) (Visit τ) where
  init s := s = none
  step s v s' :=
    (v.accepted = true ↔ Live ttl s v) ∧
    (∀ holder, v.action = .grant holder → v.accepted = false) ∧
    (v.action = .release → v.accepted = true) ∧
    s' = next ttl s v

/-- At time `clock` no lease carries the token within its idle limit. -/
def Dead (ttl : ℕ) (token : τ) (clock : ℕ) (s : Option (Holder τ)) : Prop :=
  ∀ x, s = some x → x.token = token → x.last + ttl < clock

variable {ttl clock clock' : ℕ} {token : τ} {s : Option (Holder τ)} {v : Visit τ}

/-- A visit in time uses the lease. -/
theorem check_of_live [DecidableEq τ] {x : Holder τ} (hpresented : v.presented = some x.token)
    (hlive : v.now ≤ x.last + ttl) :
    check ttl (some x) v = some ⟨x.token, if v.refreshes then v.now else x.last⟩ := by
  rw [check, Option.bind_some, if_pos hpresented, if_pos hlive]

/-- A visit that comes too late removes it. -/
theorem check_of_late [DecidableEq τ] {x : Holder τ} (hpresented : v.presented = some x.token)
    (hlate : x.last + ttl < v.now) : check ttl (some x) v = none := by
  rw [check, Option.bind_some, if_pos hpresented, if_neg (Nat.not_le.mpr hlate)]

/-- A visit with another token leaves it alone. -/
theorem check_of_ne [DecidableEq τ] (h : ∀ x, s = some x → v.presented ≠ some x.token) :
    check ttl s v = s := by
  cases s with
  | none => rfl
  | some x => rw [check, Option.bind_some, if_neg (h x rfl)]

theorem dead_none : Dead ttl token clock (none : Option (Holder τ)) := by
  intro x hx
  cases hx

theorem Dead.mono (h : Dead ttl token clock s) (hle : clock ≤ clock') :
    Dead ttl token clock' s :=
  fun x hx htoken => Nat.lt_of_lt_of_le (h x hx htoken) hle

/-- **A dead token is not accepted.** -/
theorem Dead.not_live (h : Dead ttl token clock s) (hnow : clock ≤ v.now)
    (hv : v.presented = some token) : ¬ Live ttl s v := by
  rintro ⟨x, hs, hpresented, hlive⟩
  have htoken : x.token = token := Option.some.inj (hpresented.symm.trans hv)
  have := h x hs htoken
  omega

/-- **A dead token stays dead** through every visit that does not grant it. -/
theorem Dead.next [DecidableEq τ] (h : Dead ttl token clock s) (hnow : clock ≤ v.now)
    (hle : clock ≤ clock')
    (hgrant : ∀ x, v.action = .grant (some x) → x.token ≠ token) :
    Dead ttl token clock' (next ttl s v) := by
  intro y hy htoken
  unfold Lease.next at hy
  cases haction : v.action with
  | release => simp [haction] at hy
  | grant holder =>
    rw [haction] at hy
    exact absurd htoken (hgrant y (by rw [haction, ← hy]))
  | pass =>
    rw [haction] at hy
    obtain ⟨x, hs, hx⟩ := Option.bind_eq_some_iff.mp hy
    split at hx
    · next hpresented =>
      split at hx
      · next hlive =>
        -- only a live visit uses the lease, and no visit with a dead token is live
        obtain rfl := Option.some.inj hx
        exact absurd ⟨x, hs, hpresented, hlive⟩
          (h.not_live hnow (hpresented.trans (congrArg some htoken)))
      · cases hx
    · obtain rfl := Option.some.inj hx
      exact Nat.lt_of_lt_of_le (h x hs htoken) hle

end Lease

end Foundation
