import Mathlib.Logic.Function.Basic
import Univiz.Aggregation.Jobs

namespace Univiz.Aggregation

/-! One row of `aggregation_jobs`, and the calls on it from several processes.

An UPDATE and its commit are one step here: no other session sees the row in between, and
the UPDATEs of the others wait. -/

/-- The row, with the columns that the recovery and the reconciler read as well. -/
structure JobRow extends AggregationJob where
  triggerSource : String
  startedAt : Option Int
  lastCheckpointAt : Option Int
  lastCursor : Option String
deriving DecidableEq, Repr

structure JobWrite extends Write where
  startedAt : Option Int := none
  lastCheckpointAt : Option Int := none
  lastCursor : Option (Option String) := none

def JobWrite.apply (write : JobWrite) (job : JobRow) : JobRow where
  toAggregationJob := write.toWrite.apply job.toAggregationJob
  triggerSource := job.triggerSource
  startedAt := write.startedAt.or job.startedAt
  lastCheckpointAt := write.lastCheckpointAt.or job.lastCheckpointAt
  lastCursor := write.lastCursor.getD job.lastCursor

@[simp] theorem JobWrite.apply_status (write : JobWrite) (job : JobRow) :
    (write.apply job).status = write.status.getD job.status := rfl

/-- `recover_interrupted_jobs`.  Its SELECT leaves out a row that is terminal. -/
def recoverDecision (job : JobRow) : Decision :=
  if job.status.isActive = false ∨ job.triggerSource = "purge" then .returns
  else if job.status = .running ∧ job.lastCursor ≠ none then
    .updates { status := changed job.status .pending } false
  else if job.retryCount < job.maxRetries then
    let write : Write := {
      status := changed job.status .pending
      retryCount := some (job.retryCount + 1) }
    .updates write false
  else .updates { status := changed job.status .failed } false

/-- `_reconcile_once`.  A job without any time is left alone. -/
def reconcileDecision (threshold : Int) (registered : Bool) (job : JobRow) : Decision :=
  if job.status ≠ .running then .returns
  else match job.lastCheckpointAt.or job.startedAt with
    | none => .returns
    | some reference =>
        if threshold ≤ reference ∨ registered then .returns
        else .updates { status := changed job.status .failed } false

/-- `published` says whether the request of a cancel gets to the control channel. -/
inductive JobCall where
  | resume (dataSourceId : String) (maxRetries : Option Nat)
  | cancel (dataSourceId : String) (published : Bool)
  | run (now : Int)
  | recoverInterruptedJobs
  | reconcileOnce (threshold : Int)

namespace JobCall

def decision (registered : Bool) : JobCall → JobRow → Decision
  | resume dataSourceId maxRetries, job =>
      resumeDecision dataSourceId maxRetries job.toAggregationJob
  | cancel dataSourceId _, job => cancelDecision dataSourceId registered job.toAggregationJob
  | run _, job => runDecision job.toAggregationJob
  | recoverInterruptedJobs, job => recoverDecision job
  | reconcileOnce threshold, job => reconcileDecision threshold registered job

/-- `job.started_at = job.started_at or _now()`. -/
def startedAt : JobCall → JobRow → Option Int
  | run now, job => if job.startedAt = none then some now else none
  | _, _ => none

/-- A cancel of a running job asks its worker to stop. -/
def requestsCancel : JobCall → JobRow → Bool
  | cancel dataSourceId _, job => job.dataSourceId = dataSourceId && job.status = .running
  | _, _ => false

def broadcasts : JobCall → Bool
  | cancel _ published => published
  | _ => false

def isResume : JobCall → Bool
  | resume _ _ => true
  | _ => false

/-- The caller of a cancel gets the row. -/
def isCancel : JobCall → Bool
  | cancel _ _ => true
  | _ => false

end JobCall

/-- Where a session is.  `loaded` is the copy of the row that it holds, which is gone after a
rollback, and `pending` is what a worker has changed since its last commit.  A worker that
has succeeded may still fail. -/
inductive Stage where
  | reads (call : JobCall)
  | decides (call : JobCall) (loaded : JobRow)
  | updates (call : JobCall) (loaded : JobRow) (write : JobWrite)
  | answers
  | registers (loaded : JobRow)
  | working (loaded : Option JobRow) (pending : JobWrite)
  | concluding (loaded : Option JobRow) (pending : JobWrite) (succeeded : Bool)
  | finished

namespace Stage

/-- What the next commit of the session sends. -/
def write : Stage → Option JobWrite
  | updates _ _ write => some write
  | working _ pending | concluding _ pending _ => some pending
  | reads _ | decides _ _ | answers | registers _ | finished => none

def committed : Stage → Stage
  | updates (.run _) loaded write => registers (write.apply loaded)
  | updates call _ _ => if call.isCancel then answers else finished
  | working loaded pending => working (loaded.map pending.apply) {}
  | _ => finished

def ofResume : Stage → Bool
  | updates call _ _ => call.isResume
  | _ => false

def isConcluding : Stage → Bool
  | concluding _ _ _ => true
  | _ => false

end Stage

/-- `cancelRequested` is the event of a worker in the registry of its process. -/
structure JobSession where
  process : Nat
  stage : Stage
  cancelRequested : Bool

/-- What a worker changes between two commits. -/
inductive Progress where
  | checkpoint (cursor : Option String) (now : Int)
  | retry (retryCount : Nat)

/-- A value is written where the copy of the session does not have it. -/
def written {α : Type} [DecidableEq α] : Option α → α → Option α
  | some read, value => changed read value
  | none, value => some value

def Progress.pending (loaded : Option JobRow) (pending : JobWrite) : Progress → JobWrite
  | .checkpoint cursor now =>
      { pending with
        lastCheckpointAt := some now
        lastCursor := written (loaded.map JobRow.lastCursor) cursor }
  | .retry retryCount =>
      { pending with retryCount := written (loaded.map fun job => job.retryCount) retryCount }

namespace JobSession

/-- A checkpoint raises `JobCancelled` when a cancel has been requested. -/
def progress (session : JobSession) (progress : Progress) : Option Stage :=
  match session.stage, progress with
  | .working loaded pending, .checkpoint _ _ =>
      if session.cancelRequested then none
      else some (.working loaded (progress.pending loaded pending))
  | .working loaded pending, .retry _ =>
      some (.working loaded (progress.pending loaded pending))
  | _, _ => none

def concluded (loaded : Option JobRow) (pending : JobWrite) (ending : Server.Ending)
    (succeeded : Bool) : Stage :=
  let status := written (loaded.map fun job => job.status) ending.status
  .concluding loaded { pending with status := status } succeeded

/-- How the `try` of a worker ends, without a status if its task is cancelled. -/
def conclude (session : JobSession) (ending : Option Server.Ending) : Option Stage :=
  match session.stage, ending with
  | .working loaded pending, none => some (.concluding loaded pending false)
  | .working loaded pending, some .completed => some (concluded loaded pending .completed true)
  | .working loaded pending, some .failed => some (concluded loaded pending .failed false)
  | .working loaded pending, some .cancelled =>
      if session.cancelRequested then some (concluded loaded pending .cancelled false) else none
  | .concluding loaded pending true, some .failed =>
      some (concluded loaded pending .failed false)
  | _, _ => none

/-- A checkpoint is not committed, and the session is rolled back. -/
def lose (session : JobSession) (reloaded : Option JobRow) : Option Stage :=
  match session.stage with
  | .working _ _ => some (.working reloaded {})
  | _ => none

end JobSession

/-- The row, the sessions, the `CancelRegistry` of every process, and how many requests on the
control channel its `CancelListener` may still receive.  `answered` records that a cancel has
returned with the row cancelled and that no resume has been called since, and `overturned`
that a terminal status was changed by another call than a resume. -/
structure JobProcesses where
  stored : JobRow
  sessions : List JobSession
  registry : Nat → Option Nat
  requests : Nat → Nat
  answered : Bool
  overturned : Bool

namespace JobProcesses

def start (job : JobRow) : JobProcesses where
  stored := job
  sessions := []
  registry := fun _ => none
  requests := fun _ => 0
  answered := false
  overturned := false

/-- A call starts, goes on to its next statement, or commits.  A worker makes progress, ends
its work, or loses a commit.  Any session may fail, a process may receive a request from the
control channel, and it may crash. -/
inductive Event where
  | call (process : Nat) (call : JobCall)
  | advance (id : Nat)
  | commit (id : Nat)
  | progress (id : Nat) (progress : Progress)
  | conclude (id : Nat) (ending : Option Server.Ending)
  | lose (id : Nat) (reloaded : Bool)
  | fail (id : Nat)
  | receive (process : Nat)
  | crash (process : Nat)

variable (state : JobProcesses) (id : Nat) (session : JobSession)

def goesTo (stage : Stage) : JobProcesses :=
  { state with sessions := state.sessions.set id { session with stage } }

/-- `CancelRegistry.request_cancel`. -/
def requestCancel (process : Nat) : JobProcesses :=
  match state.registry process with
  | none => state
  | some owner =>
      { state with
        sessions := state.sessions.modify owner fun session =>
          { session with cancelRequested := true } }

/-- `publish_cancel`. -/
def publishCancel (published : Bool) : JobProcesses :=
  { state with
    requests := fun process => state.requests process + if published then 1 else 0 }

def unregister (process : Nat) : JobProcesses :=
  { state with registry := Function.update state.registry process none }

/-- What a session does with the row that it has loaded. -/
def decides (call : JobCall) (loaded : JobRow) : JobProcesses :=
  let signalled := if call.requestsCancel loaded then
    (state.requestCancel session.process).publishCancel call.broadcasts else state
  match call.decision (state.registry session.process).isSome loaded with
  | .raises _ => signalled.goesTo id session .finished
  | .returns => signalled.goesTo id session (if call.isCancel then .answers else .finished)
  | .updates write _ =>
      let write : JobWrite := { toWrite := write, startedAt := call.startedAt loaded }
      signalled.goesTo id session (.updates call loaded write)

def advance : Option JobProcesses :=
  match session.stage with
  | .reads call => some (state.goesTo id session (.decides call state.stored))
  | .decides call loaded => some (state.decides id session call loaded)
  | .answers =>
      some { state.goesTo id session .finished with
        answered := state.answered || decide (state.stored.status = .cancelled) }
  | .registers loaded =>
      some { state.goesTo id session (.working (some loaded) {}) with
        registry := Function.update state.registry session.process (some id) }
  | .updates _ _ _ | .working _ _ | .concluding _ _ _ | .finished => none

/-- The status that an UPDATE changes is a terminal one. -/
def overturns (write : JobWrite) : Bool :=
  !state.stored.status.isActive && decide ((write.apply state.stored).status ≠ state.stored.status)

def commits (write : JobWrite) : JobProcesses :=
  let sent := { state.goesTo id session session.stage.committed with
    stored := write.apply state.stored
    overturned := state.overturned || (!session.stage.ofResume && state.overturns write) }
  if session.stage.isConcluding then sent.unregister session.process else sent

def fails : Option JobProcesses :=
  match session.stage with
  | .finished => none
  | _ => some (state.goesTo id session .finished)

/-- `CancelListener`. -/
def receive (process : Nat) : Option JobProcesses :=
  match state.requests process with
  | 0 => none
  | left + 1 => some { state.requestCancel process with
      requests := Function.update state.requests process left }

def crashed (process : Nat) : JobProcesses :=
  { state.unregister process with
    sessions := state.sessions.map fun session =>
      if session.process = process then { session with stage := .finished } else session }

def step : Event → Option JobProcesses
  | .call process call =>
      some { state with
        sessions := state.sessions ++ [⟨process, .reads call, false⟩]
        answered := state.answered && !call.isResume }
  | .advance id => state.sessions[id]?.bind (state.advance id)
  | .commit id => state.sessions[id]?.bind fun session =>
      session.stage.write.map (state.commits id session)
  | .progress id progress => state.sessions[id]?.bind fun session =>
      (session.progress progress).map (state.goesTo id session)
  | .conclude id ending => state.sessions[id]?.bind fun session =>
      (session.conclude ending).map (state.goesTo id session)
  | .lose id reloaded => state.sessions[id]?.bind fun session =>
      (session.lose (if reloaded then some state.stored else none)).map (state.goesTo id session)
  | .fail id => state.sessions[id]?.bind (state.fails id)
  | .receive process => state.receive process
  | .crash process => some (state.crashed process)

end JobProcesses

end Univiz.Aggregation
