import Mathlib.Algebra.Order.Ring.Rat
import Univiz.Data.Transition

namespace Univiz.Adapters

/-! The circuit breaker of `CircuitBreakerProxy` and the calls that go through it.

No critical section of the breaker waits for anything, so each is one step of the
event loop, and so is the end of a wrapped call with what it records. -/

inductive BreakerState where
  | closed
  | open
  | halfOpen
deriving DecidableEq, Repr

structure Breaker where
  failMax : Nat
  resetTimeout : Nat
  state : BreakerState
  failCounter : Nat
  openedAt : Option Rat

structure BreakerOpenError where
  retryAfterSeconds : Int
deriving DecidableEq, Repr

namespace Breaker

variable (breaker : Breaker) (now : Rat)

def create (failMax resetTimeout : Nat) : Breaker := ⟨failMax, resetTimeout, .closed, 0, none⟩

def trip : Breaker :=
  { breaker with
    state := .open
    openedAt := some now
    failCounter := max breaker.failCounter breaker.failMax }

/-- In the state OPEN `_opened_at` is set. -/
def acquireCallSlot : Except BreakerOpenError Breaker :=
  if breaker.state = .open then
    let elapsed := now - breaker.openedAt.getD now
    if elapsed < breaker.resetTimeout then .error ⟨(breaker.resetTimeout - elapsed).floor⟩
    else .ok { breaker with state := .halfOpen }
  else .ok breaker

def recordSuccess : Breaker :=
  { breaker with failCounter := 0, state := .closed, openedAt := none }

def recordFailure : Breaker :=
  if breaker.state = .halfOpen then { breaker with state := .open, openedAt := some now }
  else
    let counted := { breaker with failCounter := breaker.failCounter + 1 }
    if breaker.failMax ≤ counted.failCounter then
      { counted with state := .open, openedAt := some now }
    else counted

end Breaker

/-- How a wrapped call ends.  A logical error or a cancellation is not recorded. -/
inductive Outcome where
  | success
  | failure
  | ignored
deriving DecidableEq, Repr

/-- A wrapped call, with the times at which the breaker had opened before it started.
A call is a probe unless it found the breaker closed. -/
structure WrappedCall where
  startedAt : Rat
  openings : List Rat
  probe : Bool
  finished : Bool

/-- The proxy with its clock, its calls, the times at which the breaker has opened and
the calls whose success has closed it again. -/
structure CircuitBreakerProxy where
  breaker : Breaker
  now : Rat
  calls : List WrappedCall
  openings : List Rat
  closings : List WrappedCall

namespace CircuitBreakerProxy

def create (failMax resetTimeout : Nat) (now : Rat) : CircuitBreakerProxy where
  breaker := .create failMax resetTimeout
  now := now
  calls := []
  openings := []
  closings := []

inductive Event where
  | call
  | complete (id : Nat) (outcome : Outcome)
  | trip
  | elapse (duration : Rat)

variable (proxy : CircuitBreakerProxy)

def started (breaker : Breaker) : CircuitBreakerProxy :=
  let call : WrappedCall := {
    startedAt := proxy.now
    openings := proxy.openings
    probe := proxy.breaker.state ≠ .closed
    finished := false }
  { proxy with breaker := breaker, calls := proxy.calls ++ [call] }

def opened (breaker : Breaker) : CircuitBreakerProxy :=
  { proxy with
    breaker := breaker
    openings :=
      if breaker.state = .open then proxy.openings ++ breaker.openedAt.toList
      else proxy.openings }

def closed (call : WrappedCall) : CircuitBreakerProxy :=
  { proxy with
    breaker := proxy.breaker.recordSuccess
    closings :=
      if proxy.breaker.state = .closed then proxy.closings else proxy.closings ++ [call] }

def recorded (call : WrappedCall) : Outcome → CircuitBreakerProxy
  | .success => proxy.closed call
  | .failure => proxy.opened (proxy.breaker.recordFailure proxy.now)
  | .ignored => proxy

/-- A call that finds the breaker open is refused at once. -/
def step : Event → Option CircuitBreakerProxy
  | .call =>
      match proxy.breaker.acquireCallSlot proxy.now with
      | .error _ => some proxy
      | .ok breaker => some (proxy.started breaker)
  | .complete id outcome =>
      proxy.calls[id]?.bind fun call =>
        if call.finished then none
        else
          let finished := { proxy with calls := proxy.calls.set id { call with finished := true } }
          some (finished.recorded call outcome)
  | .trip => some (proxy.opened (proxy.breaker.trip proxy.now))
  | .elapse duration => if 0 ≤ duration then some { proxy with now := proxy.now + duration } else none

end CircuitBreakerProxy

end Univiz.Adapters
