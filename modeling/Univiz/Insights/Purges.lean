import Univiz.Aggregation.Jobs
import Univiz.Insights.Consumer

namespace Univiz.Insights

open Univiz.Data Univiz.Aggregation

/-! The deliveries of one purge message and the row that they work on. -/

/-- The columns of the row that the handler and the failure recorder write. -/
structure PurgeJob where
  status : JobStatus
  errorMessage : Option String
  totalEdges : Nat
  processedEdges : Nat
  progress : Nat

/-- What the handler meets in a delivery, if it gets to the provider.  The row may have been
committed as running, with the number of edges, before an exception. -/
inductive Attempt where
  | purged (total deleted : Nat)
  | softRetry (total : Option Nat)
  | failed (total : Option Nat) (error : String) (recorded : Bool)

/-- The failure is recorded best-effort. -/
def Attempt.isRecorded : Attempt → Bool
  | .purged _ _ | .softRetry _ => false
  | .failed _ _ recorded => recorded

structure PurgeRequest (DateTime : Type) where
  msgId : String
  envelope : JobEnvelope DateTime
  isPurge : envelope.oneShot = true
  job : PurgeJob
  active : job.status.isActive = true

/-- `purgedOn` has the numbers of the deliveries on which the provider's purge has run to its
end. -/
structure Purge where
  message : Message
  job : PurgeJob
  purgedOn : List Nat

namespace PurgeJob

def running (job : PurgeJob) (total : Nat) : PurgeJob :=
  { job with status := .running, totalEdges := total, processedEdges := 0, progress := 0 }

def completed (job : PurgeJob) (deleted : Nat) : PurgeJob :=
  { job with
    status := .completed
    totalEdges := deleted
    processedEdges := deleted
    progress := 100 }

/-- `record_failure`. -/
def recordFailure (job : PurgeJob) (error : String) : PurgeJob :=
  { job with status := .failed, errorMessage := some (String.ofList (error.toList.take 2000)) }

/-- The row as an attempt that raises leaves it. -/
def interrupted (job : PurgeJob) : Option Nat → PurgeJob
  | none => job
  | some total => job.running total

/-- `purge.collect`, with the delivery on which it is run. -/
def collect (job : PurgeJob) (delivery : Nat) : Attempt → PurgeJob × List Nat × HandlerResult
  | attempt =>
      if job.status.isActive = false then (job, [], .success)
      else match attempt with
        | .purged _ deleted => (job.completed deleted, [delivery], .success)
        | .softRetry total => (job.interrupted total, [], .softRetry)
        | .failed total error _ => (job.interrupted total, [], .failed error)

end PurgeJob

namespace Purge

variable {DateTime : Type} (config : ConsumerConfig DateTime)

def requested (request : PurgeRequest DateTime) : Purge :=
  ⟨Message.enqueued config.iso request.msgId request.envelope, request.job, []⟩

/-- The next delivery of the message: XREADGROUP the first time, `_recover_pending` later. -/
def received (purge : Purge) (copy : Copy) : Option Message :=
  if copy.timesDelivered = 0 then purge.message.step config (.read 0 fine)
  else purge.message.step config (.recover 0 fine)

/-- The handler and what the consumer does at its end. -/
def handle (purge : Purge) (message : Message) (delivery : Nat) (attempt : Attempt) :
    Option Purge :=
  let (job, purgedOn, result) := purge.job.collect delivery attempt
  let recorded := match result with
    | .failed error => if attempt.isRecorded = true then job.recordFailure error else job
    | .success | .softRetry | .lost => job
  (message.step config (.handled 0 result fine)).map fun message =>
    ⟨message, recorded, purge.purgedOn ++ purgedOn⟩

/-- One delivery with what the handler would meet.  A message that has been acknowledged is
not delivered again. -/
def deliver (purge : Purge) (attempt : Attempt) : Purge :=
  match purge.message.copies[0]?.bind (purge.received config) with
  | none => purge
  | some message =>
      match message.copies[0]? with
      | none => purge
      | some copy =>
          if copy.running = 0 then { purge with message }
          else (purge.handle config message copy.timesDelivered attempt).getD purge

end Purge

end Univiz.Insights
