import Mathlib.Algebra.Ring.Nat

/-!
# Circuit breakers

`circuit_breaker.rs`: Closed → Open → HalfOpen → Closed on success, or back to Open on failure. Every
call takes the clock it reads.
-/

namespace TurbineProxy

/-- `fetch_add(1) + 1` on a `u32` -/
def u32Succ (n : Nat) : Nat := (n + 1) % 2 ^ 32

/-- `fetch_add(1) + 1` on a `usize` -/
def usizeSucc (n : Nat) : Nat := (n + 1) % 2 ^ 64

/-- `CbState` -/
inductive CbState : Type where
  /-- errors are counted -/
  | closed
  /-- one probe is let through -/
  | halfOpen
  /-- nothing is sent until the recovery time is over -/
  | open
  deriving DecidableEq

/-- `CircuitBreaker` -/
structure CircuitBreaker where
  /-- `state` -/
  state : CbState
  /-- consecutive errors while closed -/
  consecutiveErrors : Nat
  /-- when it was opened, in milliseconds -/
  openedAt : Nat
  /-- consecutive errors that open it -/
  threshold : Nat
  /-- how long it stays open -/
  recoveryMs : Nat
  deriving DecidableEq

namespace CircuitBreaker

/-- `CircuitBreaker::new` -/
def new (threshold recoveryMs : Nat) : CircuitBreaker := ⟨.closed, 0, 0, threshold, recoveryMs⟩

variable (breaker : CircuitBreaker)

/-- `allows`; an open breaker turns to half-open once its recovery time has elapsed. -/
def allows (nowMs : Nat) : CircuitBreaker × Bool :=
  match breaker.state with
  | .closed | .halfOpen => (breaker, true)
  | .open =>
    if breaker.recoveryMs ≤ nowMs - breaker.openedAt then ({ breaker with state := .halfOpen }, true)
    else (breaker, false)

/-- `open` -/
def trip (nowMs : Nat) : CircuitBreaker :=
  { breaker with state := .open, openedAt := nowMs, consecutiveErrors := 0 }

/-- `record_success` -/
def recordSuccess : CircuitBreaker := { breaker with consecutiveErrors := 0, state := .closed }

/-- `record_failure` -/
def recordFailure (nowMs : Nat) : CircuitBreaker :=
  match breaker.state with
  | .closed =>
    let errors := u32Succ breaker.consecutiveErrors
    let counted := { breaker with consecutiveErrors := errors }
    if breaker.threshold ≤ errors then counted.trip nowMs else counted
  | .halfOpen => breaker.trip nowMs
  | .open => breaker

end CircuitBreaker

end TurbineProxy
