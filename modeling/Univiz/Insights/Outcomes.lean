import Univiz.Data.OrderedMap
import Univiz.Data.Transition

namespace Univiz.Insights

open Univiz.Data

/-! The outcomes of provider calls are buffered and drained into a table.  A drain takes
the whole buffer, then waits for its transaction; reports and other drains go on. -/

structure PendingOutcome where
  successDelta : Nat := 0
  failureDelta : Nat := 0
  consecutiveFailures : Nat := 0
  lastDurationMs : Option Int := none

/-- A row of the table. -/
structure ProviderHealthWindow where
  successCount : Nat
  failureCount : Nat
  consecutiveFailures : Nat
  lastP99Ms : Option Int

abbrev OutcomeBuffer (α : Type) := OrderedMap α PendingOutcome

inductive DrainState
  | running | committed | raised | cancelled
deriving DecidableEq

structure Drain (α : Type) where
  snapshot : OutcomeBuffer α
  state : DrainState := .running

variable {α : Type} [DecidableEq α]

/-- The row that an entry of a snapshot leaves. -/
def upserted (row : Option ProviderHealthWindow) (outcome : PendingOutcome) :
    Option ProviderHealthWindow :=
  if outcome.successDelta = 0 ∧ outcome.failureDelta = 0 then row
  else match row with
    | none => some ⟨outcome.successDelta, outcome.failureDelta, outcome.consecutiveFailures,
        outcome.lastDurationMs⟩
    | some row => some ⟨row.successCount + outcome.successDelta,
        row.failureCount + outcome.failureDelta, outcome.consecutiveFailures,
        outcome.lastDurationMs.or row.lastP99Ms⟩

def upsert (rows : OrderedMap α ProviderHealthWindow) (entry : α × PendingOutcome) :
    OrderedMap α ProviderHealthWindow :=
  match upserted (rows.get entry.1) entry.2 with
  | none => rows
  | some row => rows.set entry.1 row

/-- The buffered outcome once one of a failed drain is folded back. -/
def folded (existing : Option PendingOutcome) (outcome : PendingOutcome) : PendingOutcome :=
  match existing with
  | none => outcome
  | some existing => { existing with
      successDelta := existing.successDelta + outcome.successDelta
      failureDelta := existing.failureDelta + outcome.failureDelta
      consecutiveFailures := outcome.consecutiveFailures }

def foldBack (buffer : OutcomeBuffer α) (entry : α × PendingOutcome) : OutcomeBuffer α :=
  buffer.set entry.1 (folded (buffer.get entry.1) entry.2)

/-- The controller of a worker, the table, and the drains and reports so far. -/
structure AdmissionController (α : Type) where
  consecutiveFailures : OrderedMap α Nat := ⟨[], List.nodup_nil⟩
  lastDurations : OrderedMap α Int := ⟨[], List.nodup_nil⟩
  pending : OutcomeBuffer α := ⟨[], List.nodup_nil⟩
  rows : OrderedMap α ProviderHealthWindow := ⟨[], List.nodup_nil⟩
  drains : List (Drain α) := []
  reports : List (α × Bool) := []

namespace AdmissionController

def persistOutcome (controller : AdmissionController α) (providerId : α) (succeeded : Bool) :
    AdmissionController α :=
  let bucket := (controller.pending.get providerId).getD {}
  { controller with
    pending := controller.pending.set providerId
      { successDelta := if succeeded then bucket.successDelta + 1 else bucket.successDelta
        failureDelta := if succeeded then bucket.failureDelta else bucket.failureDelta + 1
        consecutiveFailures := (controller.consecutiveFailures.get providerId).getD 0
        lastDurationMs := controller.lastDurations.get providerId }
    reports := (providerId, succeeded) :: controller.reports }

def reportSuccess (controller : AdmissionController α) (providerId : α) :
    AdmissionController α :=
  { controller with
    consecutiveFailures := controller.consecutiveFailures.set providerId 0 }.persistOutcome
      providerId true

def reportFailure (controller : AdmissionController α) (providerId : α) :
    AdmissionController α :=
  let failures := (controller.consecutiveFailures.get providerId).getD 0
  { controller with
    consecutiveFailures := controller.consecutiveFailures.set providerId (failures + 1)
    }.persistOutcome providerId false

def recordLatency (controller : AdmissionController α) (providerId : α) (elapsedMs : Int) :
    AdmissionController α :=
  if elapsedMs < 0 then controller
  else { controller with
    lastDurations := controller.lastDurations.set providerId elapsedMs }

/-- A drain takes the buffer up to its first await. -/
def drain (controller : AdmissionController α) : AdmissionController α :=
  if controller.pending.entries = [] then controller
  else { controller with
    pending := OrderedMap.empty
    drains := controller.drains ++ [{ snapshot := controller.pending }] }

def ended (controller : AdmissionController α) (i : Nat) (drain : Drain α)
    (state : DrainState) : AdmissionController α :=
  { controller with drains := controller.drains.set i { drain with state } }

end AdmissionController

/-- What comes next.  The drain loop and whoever else drains do so at any time. -/
inductive OutcomeEvent (α : Type)
  | success (providerId : α)
  | failure (providerId : α)
  | latency (providerId : α) (elapsedMs : Int)
  | drain
  | commits (i : Nat)
  | raises (i : Nat)
  | cancelled (i : Nat)

def AdmissionController.running (controller : AdmissionController α) (i : Nat) :
    Option (Drain α) :=
  controller.drains[i]?.filter (·.state = .running)

/-- Only an exception puts the snapshot back: a cancellation is none. -/
def outcomeStep (controller : AdmissionController α) :
    OutcomeEvent α → Option (AdmissionController α)
  | .success providerId => some (controller.reportSuccess providerId)
  | .failure providerId => some (controller.reportFailure providerId)
  | .latency providerId elapsedMs => some (controller.recordLatency providerId elapsedMs)
  | .drain => some controller.drain
  | .commits i => (controller.running i).map fun drain =>
      { controller.ended i drain .committed with
        rows := drain.snapshot.entries.foldl upsert controller.rows }
  | .raises i => (controller.running i).map fun drain =>
      { controller.ended i drain .raised with
        pending := drain.snapshot.entries.foldl foldBack controller.pending }
  | .cancelled i => (controller.running i).map fun drain => controller.ended i drain .cancelled

/-! Deltas of either kind. -/

def PendingOutcome.delta (outcome : PendingOutcome) (succeeded : Bool) : Nat :=
  if succeeded then outcome.successDelta else outcome.failureDelta

def ProviderHealthWindow.count (row : ProviderHealthWindow) (succeeded : Bool) : Nat :=
  if succeeded then row.successCount else row.failureCount

def OutcomeBuffer.delta (buffer : OutcomeBuffer α) (providerId : α) (succeeded : Bool) : Nat :=
  ((buffer.get providerId).map (·.delta succeeded)).getD 0

/-- What a drain still holds: its snapshot until it has ended. -/
def Drain.delta (providerId : α) (succeeded : Bool) (drain : Drain α) : Nat :=
  if drain.state = .running then drain.snapshot.delta providerId succeeded else 0

namespace AdmissionController

variable (controller : AdmissionController α) (providerId : α) (succeeded : Bool)

def persisted : Nat := ((controller.rows.get providerId).map (·.count succeeded)).getD 0

def pendingDelta : Nat :=
  controller.pending.delta providerId succeeded +
    (controller.drains.map (Drain.delta providerId succeeded)).sum

def reported : Nat := controller.reports.count (providerId, succeeded)

/-- Neither the buffer nor a running drain holds an outcome of the provider. -/
def NothingPending : Prop :=
  controller.pending.get providerId = none ∧
    ∀ drain ∈ controller.drains, drain.state = .running → drain.snapshot.get providerId = none

/-- Nothing that was reported is lost, and what is persisted is up to date. -/
def Accounts (controller : AdmissionController α) : Prop :=
  ∀ providerId, (∀ succeeded, controller.persisted providerId succeeded +
      controller.pendingDelta providerId succeeded = controller.reported providerId succeeded) ∧
    (controller.NothingPending providerId →
      (controller.rows.get providerId).map (·.consecutiveFailures) =
        controller.consecutiveFailures.get providerId)

end AdmissionController

end Univiz.Insights
