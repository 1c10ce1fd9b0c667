import Jzf407.Foundation.Transition
import Jzf407.Web.Connection

/-!
# Runs of requests

Between two resets the two sockets serve requests one after the other: a request acts on the
atomics before it awaits anything, so requests never overlap on them. `webSystem` is this
system. Its state adds to the atomics the latest clock reading so far (`Server`), its labels are
requests with their readings and replies (`WebRequest`), and its clock never goes back or reaches
`2 ^ 32` seconds.

What is fixed between two resets is a `Boot`: the configuration, and the seconds in which the pools
of the two sockets have started. These seconds need not be the same, and each pool mints its tokens
from its own (`Boot.pool`).

A step is a request that returns, with the reply and the atomics that `serveRequest` computes.
`served_of_step` makes of it one of the outcomes of `Served`, which is how all later proofs begin.
A request that panics is no step of the system: it resets the device. That the clock does not go
back is said for runs by `clock_mono` and `clock_le_readings`.
-/

namespace Jzf407

open Foundation

/-- The two sockets of the web server. -/
inductive Socket
  | a
  | b
  deriving DecidableEq, Repr

/-- What is fixed between two resets: the configuration, and the seconds at which the two
pools start. -/
structure Boot where
  cfg : NetworkConfig
  startA : ℕ
  startB : ℕ

/-- The pool of a socket. -/
def Boot.pool (b : Boot) : Socket → Pool
  | .a => Pool.start b.cfg b.startA
  | .b => Pool.start b.cfg b.startB

@[simp]
theorem Boot.authRequired_pool (b : Boot) (k : Socket) :
    (b.pool k).authRequired = authRequired b.cfg := by
  cases k <;> rfl

/-- A boot under `adminConfig`. -/
def adminBoot : Boot := ⟨adminConfig, 0, 0⟩

/-- The atomics, and the latest clock reading. -/
structure Server where
  atomics : WebState
  clock : ℕ

/-- A request that was served, with the readings taken and the reply given. -/
structure WebRequest where
  socket : Socket
  readings : Readings
  buf : List UInt8
  reply : Reply

/-- The request had its credentials compared and accepted. -/
def WebRequest.loggedIn (e : WebRequest) : Bool :=
  match e.reply with
  | .loginRedirect _ => true
  | _ => false

/-- **The web server between two resets.** -/
def webSystem (b : Boot) : System Server WebRequest where
  init s := s.atomics = WebState.boot
  step s e s' :=
    s.clock ≤ e.readings.validate ∧ e.readings.latest < 2 ^ 32 ∧
      serveRequest (b.pool e.socket) s.atomics e.readings e.buf = .ok (e.reply, s'.atomics) ∧
      s'.clock = e.readings.latest

variable {b : Boot} {s t : Server} {e : WebRequest} {l : List WebRequest}

theorem served_of_step (h : (webSystem b).step s e t) :
    Served (b.pool e.socket) s.atomics e.readings e.buf e.reply t.atomics :=
  served_of_serveRequest h.2.2.1

/-- The clock never goes back. -/
theorem clock_mono (h : (webSystem b).Run s l t) : s.clock ≤ t.clock := by
  induction h with
  | nil => exact le_rfl
  | @cons s t u e l hstep _ ih =>
    have hlatest := e.readings.validate_le_latest
    obtain ⟨hclock, -, -, ht⟩ := hstep
    omega

/-- The readings of a run lie between the clocks at its ends. -/
theorem clock_le_readings (h : (webSystem b).Run s l t) :
    ∀ e ∈ l, s.clock ≤ e.readings.validate ∧ e.readings.latest ≤ t.clock := by
  induction h with
  | nil => simp
  | @cons s t u e l hstep hrest ih =>
    have hlatest := e.readings.validate_le_latest
    obtain ⟨hclock, -, -, ht⟩ := hstep
    have hmono := clock_mono hrest
    intro d hd
    rcases List.mem_cons.mp hd with rfl | hd
    · exact ⟨hclock, by omega⟩
    · have := ih d hd
      exact ⟨by omega, this.2⟩

end Jzf407
