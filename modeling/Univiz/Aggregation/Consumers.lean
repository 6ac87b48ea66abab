import Univiz.Data.OrderedMap
import Univiz.Data.Transition

namespace Univiz.Aggregation.Consumers

open Univiz.Data

/-! The stream `aggregation.jobs`, and the worker processes that take their jobs from it.

The entries are numbered in the order in which they were added, the processes in the order in
which they were started, and the tasks of a process in the order in which they were created. -/

/-- `MAX_DELIVERY_ATTEMPTS` -/
def maxDeliveryAttempts : Nat := 5

/-- The `min_idle_time` of XAUTOCLAIM, in milliseconds. -/
def minIdleTime : Nat := 60000

/-- The `maxlen` of XADD. -/
def maxlen : Nat := 50000

structure ConsumerConfig where
  maxConcurrency : Nat
  maxPerGraph : Nat

/-- An entry of the stream.  It is in the pending list of the group from its first delivery until
it is acknowledged. -/
structure Entry where
  jobId : String
  timesDelivered : Nat
  deliveredAt : Nat
  acknowledged : Bool
  trimmed : Bool

namespace Entry

def pending (entry : Entry) : Bool := entry.timesDelivered > 0 && ! entry.acknowledged

def undelivered (entry : Entry) : Bool := entry.timesDelivered = 0 && ! entry.trimmed

/-- XAUTOCLAIM can take the entry over. -/
def claimable (now : Nat) (entry : Entry) : Bool :=
  entry.pending && ! entry.trimmed && entry.deliveredAt + minIdleTime ≤ now

def deliver (now : Nat) (entry : Entry) : Entry :=
  { entry with timesDelivered := entry.timesDelivered + 1, deliveredAt := now }

def ack (entry : Entry) : Entry := { entry with acknowledged := true }

/-- What XPENDING says about the entry, where it is answered. -/
def deliveryCount (counted : Bool) (entry : Entry) : Nat :=
  if counted = true ∧ entry.pending = true then entry.timesDelivered else 1

end Entry

/-- The entries that XREADGROUP can deliver. -/
def undelivered (stream : List Entry) : List Nat :=
  (List.range stream.length).filter fun msgId => stream[msgId]?.any Entry.undelivered

/-- The oldest entries that are left in the stream. -/
def oldest (stream : List Entry) (count : Nat) : List Nat :=
  ((List.range stream.length).filter fun msgId =>
    stream[msgId]?.any fun entry => ! entry.trimmed).take count

/-- A call of `run` of the worker that has ended.  `seen` is the number of entries that the stream
had when it began. -/
structure Run where
  jobId : String
  seen : Nat
  deriving DecidableEq

/-- Where a task is in `_run_with_limits`.  While it runs the job it has the `msg_id` that
`_execute_job` has read. -/
inductive Phase where
  | lookingUp
  | waiting (graphKey : String)
  | running (msgId : Option Nat) (graphKey : Option String) (seen : Nat)
  | acking (msgId : Nat) (graphKey : Option String)
  | done
  deriving DecidableEq

/-- The semaphore that the task holds. -/
def Phase.holds : Phase → Option String
  | .running _ graphKey _ | .acking _ graphKey => graphKey
  | .lookingUp | .waiting _ | .done => none

/-- A call of `_run_with_limits`. -/
structure Task where
  jobId : String
  phase : Phase

/-- Where `start` is: in `_recover_pending` with the messages that it has still to look at, at the
top of its loop, in XREADGROUP, or among the messages that it has received. -/
inductive Loop where
  | recovering (claimed : List Nat)
  | top
  | reading (slots : Nat)
  | handling (messages : List Nat)
  | stopped
  deriving DecidableEq

namespace Loop

def recover : List Nat → Loop
  | [] => .top
  | claimed => .recovering claimed

def handle : List Nat → Loop
  | [] => .top
  | messages => .handling messages

/-- The messages that the loop has in its hands. -/
def messages : Loop → List Nat
  | .recovering messages | .handling messages => messages
  | .top | .reading _ | .stopped => []

@[simp] theorem messages_recover (claimed : List Nat) : (recover claimed).messages = claimed := by
  cases claimed <;> rfl

@[simp] theorem messages_handle (received : List Nat) : (handle received).messages = received := by
  cases received <;> rfl

end Loop

/-- What a process does to what it shares with the others. -/
inductive Effect where
  | delivered (msgId : Nat)
  | acked (msgId : Nat)
  | dead (msgId : Nat)
  | ran (run : Run)
  deriving DecidableEq

/-- `_ack`, which only logs a failure. -/
def acks (acked : Bool) (msgId : Nat) : List Effect := if acked = true then [.acked msgId] else []

inductive TaskEvent where
  | looksUp (graphKey : Option String)
  | acquires
  /-- `run` returns or raises. -/
  | returns
  | acknowledges (acked : Bool)
  /-- `drain` has timed out. -/
  | cancels

inductive ConsumerEvent where
  /-- A message of `_recover_pending` is looked at: whether XPENDING is answered, XADD to the
  dead-letter queue does not raise, and XACK takes effect. -/
  | recovers (counted sent acked : Bool)
  | polls
  /-- XREADGROUP delivers messages.  Where it raises after that, nobody handles them. -/
  | receives (count : Nat) (answered : Bool)
  | handles (acked : Bool)
  | continues (task : Nat) (event : TaskEvent)
  | requestShutdown
  | dies

/-- `_JobConsumer` -/
structure JobConsumer where
  alive : Bool
  shutdown : Bool
  loop : Loop
  activeTasks : OrderedMap String Nat
  messageIds : OrderedMap String Nat
  graphSemaphores : OrderedMap String Nat
  tasks : List Task

namespace JobConsumer

def create (loop : Loop) : JobConsumer :=
  ⟨true, false, loop, .empty, .empty, .empty, []⟩

variable (config : ConsumerConfig) (consumer : JobConsumer)

/-- `_message_ids[job_id] = msg_id`, and a task for the job. -/
def spawn (jobId : String) (msgId : Nat) : JobConsumer :=
  { consumer with
    messageIds := consumer.messageIds.set jobId msgId
    activeTasks := consumer.activeTasks.set jobId consumer.tasks.length
    tasks := consumer.tasks ++ [⟨jobId, .lookingUp⟩] }

def finished (jobId : String) : Bool :=
  (consumer.activeTasks.get jobId).any fun task =>
    consumer.tasks[task]?.any fun task => task.phase = .done

def reapDoneTasks : JobConsumer :=
  { consumer with
    activeTasks := consumer.activeTasks.restrict fun jobId => ! consumer.finished jobId
    messageIds := consumer.messageIds.restrict fun jobId => ! consumer.finished jobId }

/-- One round of `_recover_pending`. -/
def recoverPending (msgId : Nat) (entry : Entry) (rest : List Nat) (counted sent acked : Bool) :
    JobConsumer × List Effect :=
  if entry.jobId = "" then ({ consumer with loop := .recover rest }, acks acked msgId)
  else if maxDeliveryAttempts < entry.deliveryCount counted then
    if sent = true then
      ({ consumer with loop := .recover rest }, .dead msgId :: acks acked msgId)
    else ({ consumer with loop := .top }, [])
  else ({ consumer.spawn entry.jobId msgId with loop := .recover rest }, [])

/-- One round of the loop over the messages in `start`. -/
def handle (msgId : Nat) (entry : Entry) (rest : List Nat) (acked : Bool) :
    JobConsumer × List Effect :=
  if entry.jobId = "" then ({ consumer with loop := .handle rest }, acks acked msgId)
  else if (consumer.activeTasks.get entry.jobId).isSome = true then
    ({ consumer with loop := .handle rest }, acks acked msgId)
  else ({ consumer.spawn entry.jobId msgId with loop := .handle rest }, [])

/-- From the top of the loop to XREADGROUP, or to the end of a sleep. -/
def poll : JobConsumer :=
  if consumer.shutdown = true then { consumer with loop := .stopped }
  else
    let reaped := consumer.reapDoneTasks
    let availableSlots := config.maxConcurrency - reaped.activeTasks.size
    { reaped with loop := if availableSlots = 0 then .top else .reading availableSlots }

def put (index : Nat) (task : Task) (phase : Phase) : JobConsumer :=
  { consumer with tasks := consumer.tasks.set index { task with phase := phase } }

/-- The start of `_execute_job`. -/
def executeJob (index : Nat) (task : Task) (graphKey : Option String) (seen : Nat) : JobConsumer :=
  consumer.put index task (.running (consumer.messageIds.get task.jobId) graphKey seen)

/-- `_graph_semaphores.setdefault` -/
def semaphore (graphKey : String) : Nat :=
  (consumer.graphSemaphores.get graphKey).getD config.maxPerGraph

/-- The end of a task, and of `async with sem`. -/
def finish (index : Nat) (task : Task) : JobConsumer :=
  match task.phase.holds with
  | none => consumer.put index task .done
  | some graphKey =>
      { consumer.put index task .done with
        graphSemaphores := consumer.graphSemaphores.set graphKey
          (consumer.semaphore config graphKey + 1) }

/-- A task goes on from where it awaits.  A task that finds the semaphore free acquires it in the
next step. -/
def advance (seen : Nat) (index : Nat) (task : Task) :
    TaskEvent → Option (JobConsumer × List Effect)
  | .looksUp none =>
      match task.phase with
      | .lookingUp => some (consumer.executeJob index task none seen, [])
      | _ => none
  | .looksUp (some graphKey) =>
      match task.phase with
      | .lookingUp => some ({ consumer.put index task (.waiting graphKey) with
          graphSemaphores := consumer.graphSemaphores.set graphKey
            (consumer.semaphore config graphKey) }, [])
      | _ => none
  | .acquires =>
      match task.phase with
      | .waiting graphKey =>
          if consumer.semaphore config graphKey = 0 then none
          else some ({ consumer.executeJob index task (some graphKey) seen with
            graphSemaphores := consumer.graphSemaphores.set graphKey
              (consumer.semaphore config graphKey - 1) }, [])
      | _ => none
  | .returns =>
      match task.phase with
      | .running (some msgId) graphKey began =>
          some (consumer.put index task (.acking msgId graphKey), [.ran ⟨task.jobId, began⟩])
      | .running none _ began =>
          some (consumer.finish config index task, [.ran ⟨task.jobId, began⟩])
      | _ => none
  | .acknowledges acked =>
      match task.phase with
      | .acking msgId _ => some (consumer.finish config index task, acks acked msgId)
      | _ => none
  | .cancels =>
      if consumer.loop = .stopped ∧ consumer.activeTasks.get task.jobId = some index ∧
          task.phase ≠ .done then
        some (consumer.finish config index task, [])
      else none

def step (stream : List Entry) : ConsumerEvent → Option (JobConsumer × List Effect)
  | .recovers counted sent acked =>
      match consumer.loop with
      | .recovering (msgId :: rest) => stream[msgId]?.map fun entry =>
          consumer.recoverPending msgId entry rest counted sent acked
      | _ => none
  | .polls =>
      match consumer.loop with
      | .top => some (consumer.poll config, [])
      | _ => none
  | .receives count answered =>
      match consumer.loop with
      | .reading slots =>
          if count ≤ slots then
            let messages := (undelivered stream).take count
            some ({ consumer with loop := if answered = true then .handle messages else .top },
              messages.map .delivered)
          else none
      | _ => none
  | .handles acked =>
      match consumer.loop with
      | .handling (msgId :: rest) => stream[msgId]?.map fun entry =>
          consumer.handle msgId entry rest acked
      | _ => none
  | .continues index event => consumer.tasks[index]?.bind fun task =>
      consumer.advance config stream.length index task event
  | .requestShutdown => some ({ consumer with shutdown := true }, [])
  | .dies => some ({ consumer with alive := false }, [])

end JobConsumer

inductive GroupEvent where
  | elapses (ms : Nat)
  /-- `dispatch`.  An approximate trim frees whole nodes, so how much it frees is up to Redis. -/
  | dispatch (jobId : String) (trimmed : Nat)
  /-- A process comes up, and takes over what XAUTOCLAIM gets to. -/
  | starts (claimed : List Nat) (answered : Bool)
  | consumer (index : Nat) (event : ConsumerEvent)

/-- The stream with its dead-letter queue, the processes, and the runs that have ended. -/
structure ConsumerGroup where
  now : Nat
  stream : List Entry
  deadLetters : List Nat
  consumers : List JobConsumer
  runs : List Run

namespace ConsumerGroup

def empty : ConsumerGroup := ⟨0, [], [], [], []⟩

variable (config : ConsumerConfig) (group : ConsumerGroup)

def deliver (msgIds : List Nat) : List Entry :=
  group.stream.mapIdx fun msgId entry =>
    if msgId ∈ msgIds then entry.deliver group.now else entry

/-- XADD with `maxlen`. -/
def dispatch (jobId : String) (trimmed : Nat) : ConsumerGroup :=
  let removed := oldest group.stream trimmed
  { group with
    stream := (group.stream.mapIdx fun msgId entry =>
      if msgId ∈ removed then { entry with trimmed := true } else entry) ++
        [⟨jobId, 0, 0, false, false⟩] }

def apply : Effect → ConsumerGroup
  | .delivered msgId => { group with stream := group.deliver [msgId] }
  | .acked msgId => { group with stream := group.stream.modify msgId Entry.ack }
  | .dead msgId => { group with deadLetters := group.deadLetters ++ [msgId] }
  | .ran run => { group with runs := group.runs ++ [run] }

/-- A trim leaves `maxlen` entries. -/
def CanTrim (trimmed : Nat) : Prop :=
  trimmed = 0 ∨ trimmed + maxlen ≤ group.stream.countP (fun entry => ! entry.trimmed) + 1

instance (trimmed : Nat) : Decidable (group.CanTrim trimmed) :=
  inferInstanceAs (Decidable (_ ∨ _))

def CanClaim (claimed : List Nat) : Prop :=
  claimed.Nodup ∧ claimed.length ≤ config.maxConcurrency ∧
    ∀ msgId ∈ claimed, group.stream[msgId]?.any (Entry.claimable group.now) = true

instance (claimed : List Nat) : Decidable (group.CanClaim config claimed) :=
  inferInstanceAs (Decidable (_ ∧ _))

def step : GroupEvent → Option ConsumerGroup
  | .elapses ms => some { group with now := group.now + ms }
  | .dispatch jobId trimmed =>
      if group.CanTrim trimmed then some (group.dispatch jobId trimmed) else none
  | .starts claimed answered =>
      if group.CanClaim config claimed then
        some { group with
          stream := group.deliver claimed
          consumers := group.consumers ++
            [JobConsumer.create (if answered = true then .recover claimed else .top)] }
      else none
  | .consumer index event =>
      group.consumers[index]?.bind fun consumer =>
        if consumer.alive = true then
          (consumer.step config group.stream event).map fun (next, effects) =>
            effects.foldl apply { group with consumers := group.consumers.set index next }
        else none

end ConsumerGroup

end Univiz.Aggregation.Consumers
