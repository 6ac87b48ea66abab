import Mathlib.Data.List.Nodup
import Univiz.Data.Transition

namespace Univiz.Aggregation

/-! The job table and the sessions of `AggregationService` and of its workers.

Every call runs in a session of its own, one statement after the other, at the
isolation level READ COMMITTED.  An UPDATE holds the lock of its row from the
statement to the commit, and the ORM writes only the columns that have changed
since it read the row. -/

inductive JobStatus where
  | pending
  | running
  | completed
  | failed
  | cancelled
deriving DecidableEq, Repr

namespace JobStatus

def text : JobStatus → String
  | pending => "pending"
  | running => "running"
  | completed => "completed"
  | failed => "failed"
  | cancelled => "cancelled"

/-- `status IN ('pending', 'running')`. -/
def isActive : JobStatus → Bool
  | pending | running => true
  | completed | failed | cancelled => false

end JobStatus

/-- The columns of `aggregation_jobs` that the calls read. -/
structure AggregationJob where
  id : String
  dataSourceId : String
  graphName : Option String
  ontologyId : Option String
  ontologyFingerprint : Option String
  idempotencyKey : Option String
  createdAt : Int
  status : JobStatus
  retryCount : Nat
  maxRetries : Nat
deriving DecidableEq, Repr

namespace AggregationJob

def occupies (job : AggregationJob) (dataSourceId : String) : Bool :=
  job.dataSourceId = dataSourceId && job.status.isActive

/-- The entry of the row in the unique index `ix_agg_jobs_idem_active`, which leaves
out the rows without a key. -/
def indexed (job : AggregationJob) : Option (String × String) :=
  job.idempotencyKey.map fun idempotencyKey => (job.dataSourceId, idempotencyKey)

end AggregationJob

/-- The columns that an UPDATE sets. -/
structure Write where
  status : Option JobStatus := none
  retryCount : Option Nat := none
  maxRetries : Option Nat := none
deriving DecidableEq, Repr

namespace Write

def apply (write : Write) (job : AggregationJob) : AggregationJob :=
  { job with
    status := write.status.getD job.status
    retryCount := write.retryCount.getD job.retryCount
    maxRetries := write.maxRetries.getD job.maxRetries }

def activates (write : Write) : Bool := write.status.any JobStatus.isActive

@[simp] theorem apply_id (write : Write) (job : AggregationJob) :
    (write.apply job).id = job.id := rfl

@[simp] theorem apply_indexed (write : Write) (job : AggregationJob) :
    (write.apply job).indexed = job.indexed := rfl

@[simp] theorem apply_dataSourceId (write : Write) (job : AggregationJob) :
    (write.apply job).dataSourceId = job.dataSourceId := rfl

theorem isActive_apply {write : Write} {job : AggregationJob}
    (active : (write.apply job).status.isActive = true) :
    job.status.isActive = true ∨ write.activates = true := by
  cases written : write.status with
  | none =>
      left
      simpa only [apply, written, Option.getD_none] using active
  | some status =>
      right
      simpa only [activates, apply, written, Option.getD_some, Option.any_some] using active

end Write

/-- The rows, with their primary key and their unique index. -/
structure JobTable where
  rows : List AggregationJob
  keyed : (rows.map AggregationJob.id).Nodup
  index : (rows.filterMap AggregationJob.indexed).Nodup

namespace JobTable

def empty : JobTable := ⟨[], List.nodup_nil, List.nodup_nil⟩

/-- `session.get(AggregationJobORM, job_id)`. -/
def find (table : JobTable) (jobId : String) : Option AggregationJob :=
  table.rows.find? fun job => job.id = jobId

/-- `SELECT … WHERE data_source_id = … AND status IN ('pending', 'running')`. -/
def active (table : JobTable) (dataSourceId : String) : List AggregationJob :=
  table.rows.filter fun job => job.occupies dataSourceId

/-- The row is not in conflict with the primary key or with the unique index. -/
def Fresh (table : JobTable) (job : AggregationJob) : Prop :=
  job.id ∉ table.rows.map AggregationJob.id ∧
    ∀ entry, job.indexed = some entry → entry ∉ table.rows.filterMap AggregationJob.indexed

instance (table : JobTable) (job : AggregationJob) : Decidable (table.Fresh job) :=
  inferInstanceAs (Decidable (_ ∧ ∀ entry, job.indexed = some entry → _))

def insert (table : JobTable) (job : AggregationJob) : Option JobTable :=
  if fresh : table.Fresh job then some {
    rows := table.rows ++ [job]
    keyed := by
      rw [List.map_append, List.map_singleton]
      exact List.Nodup.append table.keyed (List.nodup_singleton _)
        (List.disjoint_singleton.mpr fresh.1)
    index := by
      rw [List.filterMap_append]
      cases entry : job.indexed with
      | none =>
          rw [List.filterMap_cons_none entry, List.filterMap_nil, List.append_nil]
          exact table.index
      | some found =>
          rw [List.filterMap_cons_some entry, List.filterMap_nil]
          exact List.Nodup.append table.index (List.nodup_singleton _)
            (List.disjoint_singleton.mpr (fresh.2 found entry)) }
  else none

def update (table : JobTable) (jobId : String) (write : Write) : JobTable where
  rows := table.rows.map fun job => if job.id = jobId then write.apply job else job
  keyed := by
    have ids : (table.rows.map fun job => if job.id = jobId then write.apply job else job).map
        AggregationJob.id = table.rows.map AggregationJob.id := by
      rw [List.map_map]
      apply List.map_congr_left
      intro job _
      dsimp only [Function.comp]
      split <;> rfl
    rw [ids]
    exact table.keyed
  index := by
    have entries : (table.rows.map fun job => if job.id = jobId then write.apply job else job
        ).filterMap AggregationJob.indexed = table.rows.filterMap AggregationJob.indexed := by
      rw [List.filterMap_map]
      apply List.filterMap_congr
      intro job _
      dsimp only [Function.comp]
      split <;> rfl
    rw [entries]
    exact table.index

end JobTable

/-- A call of `trigger`, with what it finds: the ontology that is assigned to the
data source, the graph, the ids and times it uses. -/
structure Trigger where
  dataSourceId : String
  idempotencyKey : Option String
  maxRetries : Option Nat
  cutoff : Int
  jobId : String
  createdAt : Int
  graphName : Option String
  ontologyId : Option String
  fingerprint : Option String

namespace Trigger

def job (trigger : Trigger) : AggregationJob where
  id := trigger.jobId
  dataSourceId := trigger.dataSourceId
  graphName := trigger.graphName
  ontologyId := trigger.ontologyId
  ontologyFingerprint := trigger.fingerprint
  idempotencyKey := trigger.idempotencyKey
  createdAt := trigger.createdAt
  status := .pending
  retryCount := 0
  maxRetries := trigger.maxRetries.getD 3

/-- `_replay_fingerprint_matches`. -/
def fingerprintMatches (trigger : Trigger) (existing : AggregationJob) : Bool :=
  existing.ontologyFingerprint.getD "" ≠ "" && trigger.ontologyId.getD "" ≠ "" &&
    trigger.ontologyId = existing.ontologyId &&
    trigger.fingerprint = existing.ontologyFingerprint

/-- The recent job with the key of the call, if its ontology is still current.  The
unique index leaves at most one row to look at. -/
def replay (trigger : Trigger) (table : JobTable) : Option AggregationJob :=
  if trigger.idempotencyKey.getD "" = "" then none
  else (table.rows.find? fun job => job.indexed = trigger.job.indexed &&
    decide (trigger.cutoff ≤ job.createdAt)).filter trigger.fingerprintMatches

end Trigger

def purgeJob (dataSourceId jobId : String) (createdAt : Int) : AggregationJob where
  id := jobId
  dataSourceId := dataSourceId
  graphName := none
  ontologyId := none
  ontologyFingerprint := none
  idempotencyKey := none
  createdAt := createdAt
  status := .pending
  retryCount := 0
  maxRetries := 0

/-- What a call does with the row that it has read.  A worker that has started
keeps its session for the whole job. -/
inductive Decision where
  | raises (error : String)
  | returns
  | updates (write : Write) (works : Bool)

def Decision.write : Decision → Option Write
  | .updates write _ => some write
  | .raises _ | .returns => none

/-- The ORM writes a value that differs from the one it has read. -/
def changed {α : Type} [DecidableEq α] (read value : α) : Option α :=
  if read = value then none else some value

/-- `resume`, with the override of the retry budget applied before its check. -/
def resumeDecision (dataSourceId : String) (maxRetries : Option Nat) (job : AggregationJob) :
    Decision :=
  if job.dataSourceId ≠ dataSourceId then .raises ("Aggregation job " ++ job.id ++ " not found")
  else if job.status ≠ .failed ∧ job.status ≠ .cancelled then
    .raises ("Job " ++ job.id ++ " is not resumable (current status: " ++ job.status.text ++
      "; resume requires 'failed' or 'cancelled')")
  else
    let budget := maxRetries.getD job.maxRetries
    if budget ≤ job.retryCount then
      .raises ("Job " ++ job.id ++ " has exceeded max retries (" ++ toString budget ++ ")")
    else
      let write : Write := {
        status := changed job.status .pending
        retryCount := some (job.retryCount + 1)
        maxRetries := changed job.maxRetries budget }
      .updates write false

/-- `cancel`.  A worker that is registered in this process stops by itself. -/
def cancelDecision (dataSourceId : String) (localHit : Bool) (job : AggregationJob) : Decision :=
  if job.dataSourceId ≠ dataSourceId then .raises ("Aggregation job " ++ job.id ++ " not found")
  else if job.status.isActive = false then
    .raises ("Job " ++ job.id ++ " cannot be cancelled (status: " ++ job.status.text ++ ")")
  else if job.status = .running ∧ localHit then .returns
  else .updates { status := changed job.status .cancelled } false

/-- The start of `AggregationWorker.run`. -/
def runDecision (job : AggregationJob) : Decision :=
  .updates { status := changed job.status .running } true

/-- The start of the purge handler.  It skips a row that is terminal, and it fails
a job whose data source is not there any more. -/
def collectDecision (found : Bool) (job : AggregationJob) : Decision :=
  if job.status.isActive = false then .returns
  else if found then .updates { status := changed job.status .running } true
  else .updates { status := changed job.status .failed } false

/-- The calls that read one row and then update it. -/
inductive Call where
  | resume (dataSourceId jobId : String) (maxRetries : Option Nat)
  | cancel (dataSourceId jobId : String) (localHit : Bool)
  | run (jobId : String)
  | collect (jobId : String) (found : Bool)

namespace Call

def jobId : Call → String
  | resume _ jobId _ | cancel _ jobId _ | run jobId | collect jobId _ => jobId

def decision : Call → AggregationJob → Decision
  | resume dataSourceId _ maxRetries => resumeDecision dataSourceId maxRetries
  | cancel dataSourceId _ localHit => cancelDecision dataSourceId localHit
  | run _ => runDecision
  | collect _ found => collectDecision found

end Call

/-- The next statement of a session.  `trigger` goes from `tryAdvisoryLock` to `insert`, and
`claim_purge_job` from `claimPurge` to `insert`. -/
inductive Statement where
  | lookup (trigger : Trigger)
  | tryAdvisoryLock (trigger : Trigger)
  | peek (trigger : Trigger)
  | refused (trigger : Trigger)
  | resolveOntology (trigger : Trigger)
  | claimPurge (job : AggregationJob)
  | insert (job : AggregationJob)
  | read (call : Call)
  | update (job : AggregationJob) (write : Write) (works : Bool)
  | commit (job : AggregationJob) (write : Write) (works : Bool)
  | working (job : AggregationJob)
  | returned (jobId : Option String)
  | raised (error : String)

/-- Where there is no row, the service raises and a worker logs and returns. -/
def Call.missing : Call → Statement
  | resume _ jobId _ | cancel _ jobId _ => .raised ("Aggregation job " ++ jobId ++ " not found")
  | run _ | collect _ _ => .returned none

def Statement.isOver : Statement → Bool
  | .returned _ | .raised _ => true
  | _ => false

/-- A session with the data source of its advisory lock and the row it has locked. -/
structure Session where
  statement : Statement
  advisory : Option String
  rowLock : Option String

/-- A session that ends its transaction releases its locks. -/
def Session.ended (statement : Statement) : Session := ⟨statement, none, none⟩

/-- `overlooked` records that `claim_exclusive` has returned `True` beside an
active row. -/
structure Server where
  table : JobTable
  sessions : List Session
  overlooked : Bool

namespace Server

variable (key : String → Int) (server : Server) (id : Nat)

def start : Server := ⟨.empty, [], false⟩

/-- Another session holds the advisory lock with this key. -/
def advisoryElsewhere (dataSourceId : String) : Bool :=
  (server.sessions.eraseIdx id).any fun session =>
    session.advisory.any fun held => key held = key dataSourceId

def lockedElsewhere (jobId : String) : Bool :=
  (server.sessions.eraseIdx id).any fun session => session.rowLock = some jobId

/-- `SELECT id … LIMIT 1 FOR UPDATE SKIP LOCKED`. -/
def peekActive (dataSourceId : String) : Option AggregationJob :=
  (server.table.active dataSourceId).find? fun job => !server.lockedElsewhere id job.id

/-- An active job of another data source on the same graph. -/
def graphConflict (trigger : Trigger) : Option AggregationJob :=
  if trigger.graphName.getD "" = "" then none
  else server.table.rows.find? fun other => other.graphName = trigger.graphName &&
    other.dataSourceId ≠ trigger.dataSourceId && other.status.isActive

structure Turn where
  session : Session
  table : JobTable
  overlooks : Bool := false

def stays (session : Session) : Turn := { session := session, table := server.table }

/-- The lookup has begun the session's transaction, which `session.begin()` does not allow. -/
def begunError : String := "A transaction is already begun on this Session."

def activeError : String := "An aggregation job is already active for this data source"

def graphError (trigger : Trigger) (other : AggregationJob) : String :=
  "Another aggregation job (" ++ other.id ++ ") is already active on graph '" ++
    trigger.graphName.getD "" ++ "' via data source " ++ other.dataSourceId ++
    ". Wait for it to complete or cancel it first."

def purgeError (other : AggregationJob) : String :=
  "Cannot purge while aggregation job " ++ other.id ++ " is active"

/-- One statement.  An UPDATE waits for the session that holds the row. -/
def turn (session : Session) : Option Turn :=
  match session.statement with
  | .lookup trigger =>
      match trigger.replay server.table with
      | some existing => some (server.stays (.ended (.returned (some existing.id))))
      | none => some (server.stays (.ended (.raised begunError)))
  | .tryAdvisoryLock trigger =>
      if server.advisoryElsewhere key id trigger.dataSourceId then
        some (server.stays { session with statement := .refused trigger })
      else
        let advisory := some trigger.dataSourceId
        some (server.stays { session with statement := .peek trigger, advisory := advisory })
  | .peek trigger =>
      match server.peekActive id trigger.dataSourceId with
      | some found =>
          let rowLock := some found.id
          some (server.stays { session with statement := .refused trigger, rowLock := rowLock })
      | none =>
          some { server.stays { session with statement := .resolveOntology trigger } with
            overlooks := !(server.table.active trigger.dataSourceId).isEmpty }
  | .refused trigger =>
      match trigger.replay server.table with
      | some existing => some (server.stays (.ended (.returned (some existing.id))))
      | none => some (server.stays (.ended (.raised activeError)))
  | .resolveOntology trigger =>
      match server.graphConflict trigger with
      | some other => some (server.stays (.ended (.raised (graphError trigger other))))
      | none => some (server.stays { session with statement := .insert trigger.job })
  | .claimPurge job =>
      match (server.table.active job.dataSourceId).head? with
      | some other => some (server.stays (.ended (.raised (purgeError other))))
      | none => some (server.stays { session with statement := .insert job })
  | .insert job =>
      match server.table.insert job with
      | some table => some { session := .ended (.returned (some job.id)), table := table }
      | none => some (server.stays (.ended (.raised "IntegrityError")))
  | .read call =>
      match server.table.find call.jobId with
      | none => some (server.stays (.ended call.missing))
      | some job =>
          match call.decision job with
          | .updates write works =>
              some (server.stays { session with statement := .update job write works })
          | .returns => some (server.stays (.ended (.returned (some job.id))))
          | .raises error => some (server.stays (.ended (.raised error)))
  | .update job write works =>
      if server.lockedElsewhere id job.id then none
      else
        let rowLock := some job.id
        some (server.stays { session with statement := .commit job write works, rowLock := rowLock })
  | .commit job write works =>
      some {
        session := .ended (if works then .working job else .returned (some job.id))
        table := server.table.update job.id write }
  | .working _ | .returned _ | .raised _ => none

inductive Ending where
  | completed
  | failed
  | cancelled

def Ending.status : Ending → JobStatus
  | .completed => .completed
  | .failed => .failed
  | .cancelled => .cancelled

/-- Calls start, take turns, or fail and are rolled back, as a trigger does that the
ontology gate refuses.  A worker saves its progress, or ends its job. -/
inductive Event where
  | trigger (trigger : Trigger)
  | claimPurgeJob (dataSourceId jobId : String) (createdAt : Int)
  | call (call : Call)
  | advance (id : Nat)
  | checkpoint (id : Nat) (retryCount : Option Nat)
  | finish (id : Nat) (ending : Ending)
  | fail (id : Nat)

def opened (statement : Statement) : Server :=
  { server with sessions := server.sessions ++ [.ended statement] }

def take (turn : Turn) : Server where
  table := turn.table
  sessions := server.sessions.set id turn.session
  overlooked := server.overlooked || turn.overlooks

/-- A worker that is between its statements sends an UPDATE. -/
def works (write : Write) (goesOn : Bool) : Option Server :=
  server.sessions[id]?.bind fun session =>
    match session.statement with
    | .working job =>
        some (server.take id (server.stays { session with statement := .update job write goesOn }))
    | _ => none

def step : Event → Option Server
  | .trigger trigger =>
      if trigger.idempotencyKey.getD "" = "" then
        some (server.opened (.tryAdvisoryLock trigger))
      else some (server.opened (.lookup trigger))
  | .claimPurgeJob dataSourceId jobId createdAt =>
      some (server.opened (.claimPurge (purgeJob dataSourceId jobId createdAt)))
  | .call call => some (server.opened (.read call))
  | .advance id =>
      server.sessions[id]?.bind fun session =>
        (server.turn key id session).map (server.take id)
  | .checkpoint id retryCount => server.works id { retryCount := retryCount } true
  | .finish id ending => server.works id { status := some ending.status } false
  | .fail id =>
      server.sessions[id]?.bind fun session =>
        if session.statement.isOver then none
        else some (server.take id (server.stays (.ended (.raised "error"))))

end Server

end Univiz.Aggregation
