import Univiz.Aggregation.Jobs
import Univiz.Jobs.Emitter

namespace Univiz.Aggregation

open Univiz.Data Univiz.Jobs

/-! `AggregationWorker.run` for one job: what it commits, and what it publishes. -/

/-- The columns of the job that the worker writes, NULL counting as 0. -/
structure WorkerRow where
  status : JobStatus
  lastSequence : Nat
deriving DecidableEq, Repr

/-- A row of `job_event_log`. -/
structure JobEventLog where
  sequence : Nat
  status : JobStatus
deriving DecidableEq, Repr

/-- What the other sessions see of the job. -/
structure Committed where
  row : WorkerRow
  log : List JobEventLog
deriving DecidableEq, Repr

/-- Where a worker is: between its batches, in the branch for an ending, or past the
terminal event of that branch. -/
inductive Phase where
  | running
  | concluding (ending : Server.Ending)
  | announced (ending : Server.Ending)

/-- The session of a worker, with its copy of the row and what it has flushed. -/
structure WorkerSession where
  phase : Phase
  row : WorkerRow
  log : List JobEventLog

/-- An event that the broker has accepted, with the worker that has sent it and what
was committed at that time. -/
structure Publication where
  incarnation : Nat
  event : JobEvent (Option JobStatus)
  committed : Committed

structure Worker where
  committed : Committed
  emitter : JobEmitter
  incarnation : Nat
  session : Option WorkerSession
  published : List Publication

/-- How `session.commit()` ends.  After an error the session is rolled back, with or
without its copy of the row. -/
inductive CommitOutcome where
  | landed
  | lost (reloaded : Bool)
deriving DecidableEq

namespace Worker

def start : Worker where
  committed := ⟨⟨.pending, 0⟩, []⟩
  emitter := .empty
  incarnation := 0
  session := none
  published := []

/-- The flags say whether the broker accepts an event, whether the audit row is
flushed, and whether the last commit takes effect. -/
inductive Event where
  | run (accepted : Bool)
  | progress (accepted : Bool)
  | checkpoint (outcome : CommitOutcome)
  | save (outcome : CommitOutcome)
  | conclude (ending : Server.Ending) (logged : Bool)
  | terminal (accepted : Bool)
  | finish (landed : Bool)
  | crash

variable (jobId : String) (worker : Worker)

def emitted (sent : JobEmitter × JobEvent (Option JobStatus)) (accepted : Bool) : Worker :=
  let publication : Publication := ⟨worker.incarnation, sent.2, worker.committed⟩
  { worker with
    emitter := sent.1
    published := if accepted then worker.published ++ [publication] else worker.published }

/-- The start of `run`, after its first commit. -/
def started : Worker :=
  let row := { worker.committed.row with status := .running }
  { worker with
    committed := { worker.committed with row := row }
    emitter := worker.emitter.seedSequence jobId row.lastSequence
    incarnation := worker.incarnation + 1
    session := some ⟨.running, row, []⟩ }

def commits (session : WorkerSession) : CommitOutcome → Worker
  | .landed =>
      { worker with
        committed := ⟨session.row, worker.committed.log ++ session.log⟩
        session := some { session with log := [] } }
  | .lost reloaded =>
      let row := if reloaded then worker.committed.row else session.row
      { worker with session := some { session with row := row, log := [] } }

/-- The beginning of the branch for an ending. -/
def concluded (session : WorkerSession) (ending : Server.Ending) (logged : Bool) : Worker :=
  let record : JobEventLog := ⟨worker.emitter.currentSequence jobId + 1, ending.status⟩
  { worker with
    session := some {
      phase := .concluding ending
      row := { session.row with status := ending.status }
      log := if logged then session.log ++ [record] else session.log } }

def atWork (next : WorkerSession → Worker) : Option Worker :=
  worker.session.bind fun session =>
    match session.phase with
    | .running => some (next session)
    | .concluding _ | .announced _ => none

/-- One step.  A worker that has failed after `job.status = "completed"` takes the
branch for failures as well. -/
def step : Event → Option Worker
  | .run accepted =>
      match worker.session with
      | some _ => none
      | none =>
          let started := worker.started jobId
          some (started.emitted (started.emitter.publish jobId .state (some .running)) accepted)
  | .progress accepted => worker.atWork fun _ =>
      worker.emitted (worker.emitter.publish jobId .progress none) accepted
  | .checkpoint outcome => worker.atWork fun session =>
      let row := { session.row with lastSequence := session.row.lastSequence + 1 }
      worker.commits { session with row := row } outcome
  | .save outcome => worker.atWork fun session => worker.commits session outcome
  | .conclude ending logged =>
      worker.session.bind fun session =>
        match session.phase, ending with
        | .running, _ | .concluding .completed, .failed | .announced .completed, .failed =>
            some (worker.concluded jobId session ending logged)
        | _, _ => none
  | .terminal accepted =>
      worker.session.bind fun session =>
        match session.phase with
        | .concluding ending =>
            let announced := some { session with phase := .announced ending }
            let sent := worker.emitter.terminal jobId (some ending.status)
            some ({ worker with session := announced }.emitted sent accepted)
        | .running | .announced _ => none
  | .finish landed =>
      worker.session.map fun session =>
        let committed : Committed := ⟨session.row, worker.committed.log ++ session.log⟩
        { worker with
          committed := if landed then committed else worker.committed
          session := none }
  | .crash => worker.session.map fun _ => { worker with session := none }

end Worker

end Univiz.Aggregation
