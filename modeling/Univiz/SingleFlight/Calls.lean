import Mathlib.Algebra.Order.Field.Rat
import Univiz.Data.Transition

namespace Univiz.SingleFlight

open Univiz.Data

/-! Calls of `run` for one key.  A first caller leads: it executes the function and
resolves a future that the others await.  A caller that is cancelled cancels the future it
awaits.  Times are seconds of the monotonic clock. -/

inductive Outcome (α ε : Type)
  | result (value : α)
  | exception (error : ε)
  | cancelled
deriving DecidableEq

/-- The end of an execution, and how many executions had started by then.  The leader
returns or raises the outcome. -/
structure Ending (α ε : Type) where
  outcome : Outcome α ε
  before : Nat
deriving DecidableEq

/-- An execution of the function by a leader, and the future that its followers await. -/
structure Execution (α ε : Type) where
  startedAt : ℚ
  future : Option (Outcome α ε) := none
  ending : Option (Ending α ε) := none

/-- A caller that awaits the future of an execution, until it has received an outcome. -/
structure Follower (α ε : Type) where
  execution : Nat
  cancelled : Bool := false
  received : Option (Outcome α ε) := none

structure Entry where
  execution : Nat
  deadline : ℚ

/-- The entry under the key, and the calls so far. -/
structure Flights (α ε : Type) where
  now : ℚ := 0
  entry : Option Entry := none
  executions : List (Execution α ε) := []
  followers : List (Follower α ε) := []

inductive FlightEvent (α ε : Type)
  | passes (seconds : ℚ)
  | call
  | ends (e : Nat) (outcome : Outcome α ε)
  | cancels (f : Nat)
  | resumes (f : Nat)

variable {α ε : Type}

namespace Flights

variable (ttl : ℚ) (flights : Flights α ε)

/-- The entry that a call finds.  One that is past its deadline counts as gone. -/
def existing : Option Entry :=
  flights.entry.filter fun entry => ¬ entry.deadline < flights.now

def call : Flights α ε :=
  match flights.existing with
  | some entry =>
      { flights with followers := flights.followers ++ [{ execution := entry.execution }] }
  | none =>
      { flights with
        entry := some ⟨flights.executions.length, flights.now + ttl⟩
        executions := flights.executions ++ [{ startedAt := flights.now }] }

/-- The function ends: the leader resolves its future unless it is done already, and takes
out whatever is under the key. -/
def ends (e : Nat) (execution : Execution α ε) (outcome : Outcome α ε) : Flights α ε :=
  { flights with
    entry := none
    executions := flights.executions.set e
      { execution with
        future := execution.future.or (some outcome)
        ending := some ⟨outcome, flights.executions.length⟩ } }

/-- A cancellation of a waiting follower: its task cancels the future it awaits, which is
without effect on a future that is done. -/
def cancels (f : Nat) (follower : Follower α ε) (execution : Execution α ε) : Flights α ε :=
  { flights with
    executions := flights.executions.set follower.execution
      { execution with future := execution.future.or (some .cancelled) }
    followers := flights.followers.set f { follower with cancelled := true } }

def resumes (f : Nat) (follower : Follower α ε) (outcome : Outcome α ε) : Flights α ε :=
  { flights with
    followers := flights.followers.set f
      { follower with received := some (if follower.cancelled then .cancelled else outcome) } }

end Flights

def step (ttl : ℚ) (flights : Flights α ε) : FlightEvent α ε → Option (Flights α ε)
  | .passes seconds =>
      if 0 ≤ seconds then some { flights with now := flights.now + seconds } else none
  | .call => some (flights.call ttl)
  | .ends e outcome =>
      (flights.executions[e]?.filter fun execution => execution.ending.isNone).map
        fun execution => flights.ends e execution outcome
  | .cancels f =>
      (flights.followers[f]?.filter fun follower => follower.received.isNone).bind
        fun follower => flights.executions[follower.execution]?.map
          fun execution => flights.cancels f follower execution
  | .resumes f =>
      (flights.followers[f]?.filter fun follower => follower.received.isNone).bind
        fun follower => (flights.executions[follower.execution]?.bind (·.future)).map
          fun outcome => flights.resumes f follower outcome

/-! What callers may rely on. -/

/-- The earlier of two executions had ended when the later one started, or its time had
been up. -/
def Spaced (ttl : ℚ) (j : Nat) (earlier later : Execution α ε) : Prop :=
  (∃ ending ∈ earlier.ending, ending.before ≤ j) ∨
    earlier.startedAt + ttl < later.startedAt

/-- What a follower that is not cancelled has received is the outcome of its execution, and
when this has ended its future holds the outcome. -/
def Follower.Served (flights : Flights α ε) (follower : Follower α ε) : Prop :=
  follower.cancelled = false → ∃ execution,
    flights.executions[follower.execution]? = some execution ∧
    (∀ outcome ∈ follower.received, ∃ ending ∈ execution.ending, ending.outcome = outcome) ∧
    ∀ ending ∈ execution.ending, execution.future = some ending.outcome

structure Flights.Deduplicates (ttl : ℚ) (flights : Flights α ε) : Prop where
  spaced : ∀ (i j : Nat) (earlier later : Execution α ε), i < j →
    flights.executions[i]? = some earlier → flights.executions[j]? = some later →
      Spaced ttl j earlier later
  served : ∀ follower ∈ flights.followers, follower.Served flights

end Univiz.SingleFlight
