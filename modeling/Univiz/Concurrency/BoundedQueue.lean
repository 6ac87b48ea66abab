import Univiz.Data.OrderedMap
import Univiz.Data.Transition

namespace Univiz.Concurrency

open Univiz.Data

/-! `BoundedQueue` with the code that uses it.

That code runs between the turns of the event loop, and inside a task up to its first
`await`.  The stack has what has not returned yet, the innermost first.  What an abort listener
calls counts as called right after the `cancel`. -/

inductive Outcome where
  | fulfilled
  | rejected
deriving DecidableEq, Repr

inductive TaskState where
  | pending
  | running
  | ended (outcome : Outcome)
  | abandoned
deriving DecidableEq, Repr

/-- A task that has been submitted, with its queue entry and the promise for it. -/
structure Task where
  key : String
  state : TaskState
  aborted : Bool
  promise : Option Outcome
deriving DecidableEq, Repr

namespace Task

/-- `entry.started`. -/
def started (task : Task) : Bool :=
  match task.state with
  | .pending | .abandoned => false
  | .running | .ended _ => true

def running (task : Task) : Bool := task.state = .running

def unfinished (task : Task) : Bool := task.state = .pending ∨ task.state = .running

/-- A promise that is settled stays so. -/
def settle (task : Task) (state : TaskState) (outcome : Outcome) : Task :=
  { task with state, promise := task.promise.or (some outcome) }

end Task

/-- The loop of `drain`, the rest of `submit`, and the part of a task before its first
`await`. -/
inductive Frame where
  | drain
  | submit (key : String) (id : Nat)
  | task (id : Nat)
deriving DecidableEq, Repr

/-- The tasks are numbered as they are submitted; `starts` has those that have been started. -/
structure BoundedQueue where
  limit : Int
  active : Int
  pending : List Nat
  entries : OrderedMap String Nat
  inflight : OrderedMap String Nat
  tasks : List Task
  starts : List Nat
  stack : List Frame

inductive Event where
  | submit (key : String)
  | cancel (key : String)
  | cancelAll
  | suspend
  | throws
  | settle (id : Nat) (outcome : Outcome)
deriving DecidableEq, Repr

namespace BoundedQueue

def create (limit : Int) : BoundedQueue := ⟨max 1 limit, 0, [], .empty, .empty, [], [], []⟩

def start (queue : BoundedQueue) (next : Nat) (later : List Nat) (rest : List Frame) :
    BoundedQueue :=
  { queue with
    active := queue.active + 1
    pending := later
    tasks := queue.tasks.modify next fun task => { task with state := .running }
    starts := queue.starts ++ [next]
    stack := .task next :: rest }

/-- Returning to the frames, until code of a user runs. -/
def resume (queue : BoundedQueue) : List Frame → BoundedQueue
  | [] => { queue with stack := [] }
  | .drain :: rest =>
      match queue.pending with
      | next :: later =>
          if queue.active < queue.limit then queue.start next later (.drain :: rest)
          else resume queue rest
      | [] => resume queue rest
  | .submit key id :: rest => resume { queue with inflight := queue.inflight.set key id } rest
  | .task id :: rest => { queue with stack := .task id :: rest }

variable (queue : BoundedQueue)

def enqueue (key : String) : BoundedQueue :=
  { queue with
    tasks := queue.tasks ++ [⟨key, .pending, false, none⟩]
    pending := queue.pending ++ [queue.tasks.length]
    entries := queue.entries.set key queue.tasks.length }

def submit (key : String) : BoundedQueue :=
  match queue.inflight.get key with
  | some _ => queue
  | none =>
      (queue.enqueue key).resume (.drain :: .submit key queue.tasks.length :: queue.stack)

/-- The task of the promise that `submit` returns. -/
def submitted (key : String) : Nat := (queue.inflight.get key).getD queue.tasks.length

def abort (id : Nat) : BoundedQueue :=
  { queue with tasks := queue.tasks.modify id fun task => { task with aborted := true } }

def abandonPending (id : Nat) (key : String) : BoundedQueue :=
  { queue with
    pending := queue.pending.erase id
    entries := queue.entries.erase key
    inflight := queue.inflight.erase key
    tasks := queue.tasks.modify id fun task => task.settle .abandoned .fulfilled }

def cancel (key : String) : BoundedQueue :=
  match queue.entries.get key with
  | none => queue
  | some id =>
      match queue.tasks[id]? with
      | none => queue
      | some task =>
          if task.started then queue.abort id else (queue.abort id).abandonPending id task.key

def cancelAll : BoundedQueue := (queue.entries.entries.map Prod.fst).foldl cancel queue

/-- The completion handler, up to its `drain`. -/
def complete (id : Nat) (key : String) (outcome : Outcome) : BoundedQueue :=
  { queue with
    active := queue.active - 1
    entries := queue.entries.erase key
    inflight := queue.inflight.erase key
    tasks := queue.tasks.modify id fun task => task.settle (.ended outcome) outcome }

/-- A task is suspended by its first `await`, or throws before it.  It is settled by the
event loop. -/
def step : Event → Option BoundedQueue
  | .submit key => some (queue.submit key)
  | .cancel key => some (queue.cancel key)
  | .cancelAll => some queue.cancelAll
  | .suspend =>
      match queue.stack with
      | .task _ :: rest => some (queue.resume rest)
      | _ => none
  | .throws =>
      match queue.stack with
      | .task id :: rest =>
          (queue.tasks[id]?).map fun task =>
            (queue.complete id task.key .rejected).resume (.drain :: rest)
      | _ => none
  | .settle id outcome =>
      match queue.stack, queue.tasks[id]? with
      | [], some task =>
          if task.running then some ((queue.complete id task.key outcome).resume [.drain])
          else none
      | _, _ => none

end BoundedQueue

end Univiz.Concurrency
