import Univiz.Aggregation.Worker
import Univiz.Falkor.Scan

namespace Univiz.Aggregation

open Univiz.Data Univiz.Falkor

/-! The progress of an aggregation job while the bulk rebuild is switched off: the attempts of
`_materialize_with_retries`, the resumptions, and what their checkpoints commit. -/

/-- The sizes that the request schemas accept. -/
abbrev BatchSize := { size : Nat // 100 ≤ size ∧ size ≤ 50000 }

/-- The columns of the job that tell its progress. -/
structure ProgressRow where
  status : JobStatus
  processedEdges : Nat
  totalEdges : Nat
  createdEdges : Nat
  lastCursor : Option String
  batchSize : BatchSize
deriving DecidableEq

/-- A call of `materialize_aggregated_edges_batch` with the closure `checkpoint` that it is
given: it fetches the next page, or has processed one and calls `checkpoint`. -/
structure ProviderCall where
  processed : Nat
  createdCount : Nat
  currentCursor : Option String
  shortPage : Bool
  atCheckpoint : Bool
  isFirstCheckpoint : Bool
  batchesSinceCommit : Nat

/-- The session of a worker with its copy of the row, and whether the job's cancel event is
set. -/
structure ProgressSession where
  row : ProgressRow
  cancelled : Bool
  call : Option ProviderCall

/-- What has been committed, and the worker that has the job.  The latest of the earlier rows
comes first. -/
structure Progression where
  durable : ProgressRow
  earlier : List ProgressRow
  session : Option ProgressSession

/-- The lineage edges that the provider selects in a graph. -/
def selectedEdges (containment lineage : List String) (graph : List LineageEdge) :
    List LineageEdge :=
  match typeFilter containment lineage with
  | none => []
  | some filter => filter.select graph

/-- A job over a fixed graph.  Its edge types are frozen, and the queries of its attempts give
the same answers. -/
structure Materialization where
  graph : List LineageEdge
  containmentTypes : List String
  lineageTypes : List String
  query : PagedQuery cursorKey (selectedEdges containmentTypes lineageTypes graph)

/-- What happens to a job.  A batch creates some aggregated edges; whether the interval between
commits has passed, and how a commit ends, shows at the checkpoint. -/
inductive ProgressEvent where
  | run
  | attempt
  | batch (created : Nat)
  | checkpoint (elapsed : Bool) (commit : CommitOutcome)
  | raises
  | commits
  | returns
  | cancelRequested
  | stops (status : JobStatus)
  | closes
  | crashes
  | marked (status : JobStatus)
  | resumed (batchSize : Option BatchSize)

namespace ProviderCall

def start (lastCursor : Option String) : ProviderCall where
  processed := 0
  createdCount := 0
  currentCursor := lastCursor.filter (· ≠ "")
  shortPage := false
  atCheckpoint := false
  isFirstCheckpoint := true
  batchesSinceCommit := 0

def afterPage (call : ProviderCall) (page : List LineageEdge) (last : LineageEdge)
    (limit created : Nat) : ProviderCall :=
  { call with
    processed := call.processed + page.length
    createdCount := call.createdCount + created
    currentCursor := some (cursorKey last)
    shortPage := page.length < limit
    atCheckpoint := true }

/-- `_CHECKPOINT_MAX_BATCHES` is 5. -/
def shouldCommit (call : ProviderCall) (elapsed : Bool) : Bool :=
  call.isFirstCheckpoint || elapsed || 5 ≤ call.batchesSinceCommit + 1

end ProviderCall

def ProgressRow.checkpointed (row : ProgressRow) (call : ProviderCall) (total : Nat) :
    ProgressRow :=
  { row with
    processedEdges := call.processed
    totalEdges := total
    createdEdges := if 0 < call.createdCount then call.createdCount else row.createdEdges
    lastCursor := call.currentCursor }

namespace Progression

def start (batchSize : BatchSize) : Progression where
  durable := ⟨.pending, 0, 0, 0, none, batchSize⟩
  earlier := []
  session := none

variable (state : Progression)

def committed : List ProgressRow := state.durable :: state.earlier

def commit (row : ProgressRow) (session : Option ProgressSession) : Progression where
  durable := row
  earlier := state.committed
  session

def withCall (session : ProgressSession) (call : Option ProviderCall) : Progression :=
  { state with session := some { session with call } }

def inCall (next : ProgressSession → ProviderCall → Option Progression) : Option Progression :=
  match state.session with
  | none => none
  | some session => session.call.bind (next session)

/-- The service and the reconciler write the row of a job that no worker has. -/
def unattended (allowed : JobStatus → Bool) (change : ProgressRow → ProgressRow) :
    Option Progression :=
  if state.session.isNone && allowed state.durable.status then
    some (state.commit (change state.durable) none)
  else none

end Progression

namespace Materialization

variable (job : Materialization) (state : Progression)

def edges : List LineageEdge := selectedEdges job.containmentTypes job.lineageTypes job.graph

def page (row : ProgressRow) (cursor : Option String) : List LineageEdge :=
  job.query.page row.batchSize.1 cursor

/-- The checkpoint raises `JobCancelled` once a cancel has been requested, and the provider
logs the error and goes on. -/
def checkpoint (session : ProgressSession) (call : ProviderCall) (elapsed : Bool) :
    CommitOutcome → Progression :=
  let passed := { call with atCheckpoint := false }
  let row := session.row.checkpointed call job.edges.length
  let committing := { passed with batchesSinceCommit := 0 }
  fun outcome =>
    if session.cancelled then state.withCall session (some passed)
    else if call.shouldCommit elapsed then
      match outcome with
      | .landed =>
          state.commit row
            (some { session with row, call := some { committing with isFirstCheckpoint := false } })
      | .lost reloaded =>
          state.withCall { session with row := if reloaded then state.durable else row }
            (some committing)
    else
      state.withCall { session with row }
        (some { passed with batchesSinceCommit := call.batchesSinceCommit + 1 })

def step : ProgressEvent → Option Progression
  | .run =>
      let row := { state.durable with status := .running }
      if state.session.isNone && state.durable.status ∈ [.pending, .running] then
        some (state.commit row (some ⟨row, false, none⟩))
      else none
  | .attempt => state.session.bind fun session =>
      if session.call.isNone && session.row.status = .running then
        some (state.withCall session (some (.start session.row.lastCursor)))
      else none
  | .batch created => state.inCall fun session call =>
      let page := job.page session.row call.currentCursor
      if call.atCheckpoint || call.shortPage || session.cancelled then none
      else page.getLast?.map fun last =>
        state.withCall session (some (call.afterPage page last session.row.batchSize.1 created))
  | .checkpoint elapsed outcome => state.inCall fun session call =>
      if call.atCheckpoint then some (job.checkpoint state session call elapsed outcome) else none
  | .raises => state.inCall fun session _ => some (state.withCall session none)
  | .commits => state.session.bind fun session =>
      if session.call.isNone && session.row.status = .running then
        some (state.commit session.row (some session))
      else none
  | .returns => state.inCall fun session call =>
      if !call.atCheckpoint &&
          (call.shortPage || (job.page session.row call.currentCursor).isEmpty) then
        let row :=
          { session.row with status := .completed, createdEdges := call.createdCount }
        some (state.withCall { session with row } none)
      else none
  | .cancelRequested => state.session.map fun session =>
      { state with session := some { session with cancelled := true } }
  | .stops status => state.session.bind fun session =>
      if status ∈ [.failed, .cancelled] then
        some (state.withCall { session with row := { session.row with status } } none)
      else none
  | .closes => state.session.bind fun session =>
      if session.call.isNone && session.row.status ≠ .running then
        some (state.commit session.row none)
      else none
  | .crashes => state.session.map fun _ => { state with session := none }
  | .marked status =>
      if status ∈ [.failed, .cancelled] then
        state.unattended (· ∈ [.pending, .running]) fun row => { row with status }
      else none
  | .resumed batchSize => state.unattended (· ∈ [.failed, .cancelled]) fun row =>
      { row with status := .pending, batchSize := batchSize.getD row.batchSize }

/-- The number of edges whose cursor key is at most the cursor. -/
def edgesUpTo (edges : List LineageEdge) : Option String → Nat
  | none => 0
  | some cursor => edges.countP fun edge => cursorKey edge ≤ cursor

/-- At every commit the processed edges are those up to the cursor, the counts of an earlier
commit are not larger, and a job that is complete has processed all. -/
structure Correct (state : Progression) : Prop where
  processed : ∀ row ∈ state.committed, row.processedEdges = edgesUpTo job.edges row.lastCursor
  grows : state.committed.Pairwise fun later earlier =>
    earlier.processedEdges ≤ later.processedEdges ∧ earlier.createdEdges ≤ later.createdEdges
  completed : ∀ row ∈ state.committed, row.status = .completed →
    row.processedEdges = row.totalEdges

def Exhausted (cursor : Option String) : Prop :=
  ∀ edge ∈ job.edges, isAfter cursorKey cursor edge = false

instance (cursor : Option String) : Decidable (job.Exhausted cursor) :=
  inferInstanceAs (Decidable (∀ edge ∈ job.edges, isAfter cursorKey cursor edge = false))

/-- An attempt starts from the beginning, unless nothing has been created and nothing is left;
no page ends between two edges with one key; and a checkpoint after which the row is behind is
not the last. -/
def Undisturbed (state : Progression) : ProgressEvent → Prop
  | .attempt => ∀ session ∈ state.session, session.row.lastCursor = none ∨
      job.Exhausted session.row.lastCursor ∧ session.row.createdEdges = 0
  | .batch _ => ∀ session ∈ state.session, ∀ call ∈ session.call,
      ∀ last ∈ (job.page session.row call.currentCursor).getLast?,
        ∀ next ∈ (job.query.answer call.currentCursor)[session.row.batchSize.1]?,
          cursorKey next ≠ cursorKey last
  | .checkpoint elapsed outcome => ∀ session ∈ state.session, ∀ call ∈ session.call,
      session.cancelled = true ∨ (call.shouldCommit elapsed = true ∧ outcome = .lost true) →
        ¬ job.Exhausted call.currentCursor
  | _ => True

instance : (event : ProgressEvent) → Decidable (job.Undisturbed state event)
  | .attempt => inferInstanceAs (Decidable (∀ session ∈ state.session,
      session.row.lastCursor = none ∨
        job.Exhausted session.row.lastCursor ∧ session.row.createdEdges = 0))
  | .batch _ => inferInstanceAs (Decidable (∀ session ∈ state.session, ∀ call ∈ session.call,
      ∀ last ∈ (job.page session.row call.currentCursor).getLast?,
        ∀ next ∈ (job.query.answer call.currentCursor)[session.row.batchSize.1]?,
          cursorKey next ≠ cursorKey last))
  | .checkpoint elapsed outcome => inferInstanceAs (Decidable (∀ session ∈ state.session,
      ∀ call ∈ session.call,
        session.cancelled = true ∨ (call.shouldCommit elapsed = true ∧ outcome = .lost true) →
          ¬ job.Exhausted call.currentCursor))
  | .run | .raises | .commits | .returns | .cancelRequested | .stops _ | .closes | .crashes
  | .marked _ | .resumed _ => isTrue trivial

variable {job state}

theorem edgesUpTo_eq (cursor : Option String) :
    edgesUpTo job.edges cursor = PagedQuery.passed cursorKey job.edges cursor := by
  cases cursor with
  | none => simp [edgesUpTo, PagedQuery.passed, isAfter]
  | some cursor =>
      refine List.countP_congr fun edge _ => ?_
      rw [isAfter, Bool.not_eq_true', decide_eq_false_iff_not, decide_eq_true_iff, not_lt]

theorem edgesUpTo_of_exhausted {cursor : Option String} (exhausted : job.Exhausted cursor) :
    edgesUpTo job.edges cursor = job.edges.length := by
  rw [edgesUpTo_eq]
  refine List.countP_eq_length.mpr fun edge member => ?_
  rw [exhausted edge member, Bool.not_false]

/-- A row that has been written at a checkpoint, or not yet. -/
structure Counted (job : Materialization) (row : ProgressRow) : Prop where
  processed : row.processedEdges = edgesUpTo job.edges row.lastCursor
  unset : row.lastCursor = none → row.totalEdges = 0 ∧ row.createdEdges = 0
  total : ∀ cursor ∈ row.lastCursor, row.totalEdges = job.edges.length ∧ cursor ≠ ""
  completed : row.status = .completed → row.processedEdges = row.totalEdges

def Grows (earlier later : ProgressRow) : Prop :=
  earlier.processedEdges ≤ later.processedEdges ∧ earlier.createdEdges ≤ later.createdEdges

/-- What a call has counted, against the row.  Behind its cursor lies what it has processed,
unless there is nothing for it to process. -/
structure InStep (job : Materialization) (row : ProgressRow) (call : ProviderCall) : Prop where
  running : row.status = .running
  processed : call.processed = edgesUpTo job.edges call.currentCursor ∨
    job.Exhausted call.currentCursor
  reached : edgesUpTo job.edges row.lastCursor ≤ edgesUpTo job.edges call.currentCursor
  created : row.createdEdges ≤ call.createdCount
  unset : call.currentCursor = none → call.createdCount = 0
  short : call.shortPage = true → job.Exhausted call.currentCursor
  synced : call.atCheckpoint = false →
    row.lastCursor = call.currentCursor ∨ ¬ job.Exhausted call.currentCursor
  fetched : call.atCheckpoint = true → call.processed = edgesUpTo job.edges call.currentCursor ∧
    ∃ cursor, call.currentCursor = some cursor ∧ cursor ≠ ""

structure Attended (job : Materialization) (durable : ProgressRow) (session : ProgressSession) :
    Prop where
  running : durable.status = .running
  counted : Counted job session.row
  grows : Grows durable session.row
  inStep : ∀ call ∈ session.call, InStep job session.row call

structure Sound (job : Materialization) (state : Progression) : Prop where
  counted : ∀ row ∈ state.committed, Counted job row
  grows : state.committed.Pairwise fun later earlier => Grows earlier later
  attended : ∀ session ∈ state.session, Attended job state.durable session

theorem Sound.correct (sound : Sound job state) : Correct job state where
  processed row member := (sound.counted row member).processed
  grows := sound.grows
  completed row member := (sound.counted row member).completed

theorem start_sound (batchSize : BatchSize) : Sound job (.start batchSize) where
  counted := by
    rintro row (_ | ⟨_, ⟨⟩⟩)
    exact ⟨rfl, fun _ => ⟨rfl, rfl⟩, nofun, nofun⟩
  grows := List.pairwise_singleton _ _
  attended session absent := by cases absent

theorem Grows.trans {first second third : ProgressRow} (lower : Grows first second)
    (upper : Grows second third) : Grows first third :=
  ⟨lower.1.trans upper.1, lower.2.trans upper.2⟩

variable {row : ProgressRow} {session : ProgressSession} {call : ProviderCall}

/-- A row that has not gone back may be committed. -/
theorem Sound.commit (sound : Sound job state) (counted : Counted job row)
    (grows : Grows state.durable row) {next : Option ProgressSession}
    (attended : ∀ session ∈ next, Attended job row session) : Sound job (state.commit row next) where
  counted := List.forall_mem_cons.mpr ⟨counted, sound.counted⟩
  grows := by
    refine List.pairwise_cons.mpr ⟨?_, sound.grows⟩
    intro earlier member
    rcases List.mem_cons.mp member with rfl | before
    · exact grows
    · exact ((List.pairwise_cons.mp sound.grows).1 earlier before).trans grows
  attended := attended

theorem Sound.withSession (sound : Sound job state) {next : Option ProgressSession}
    (attended : ∀ session ∈ next, Attended job state.durable session) :
    Sound job { state with session := next } :=
  ⟨sound.counted, sound.grows, attended⟩

theorem Sound.durable (sound : Sound job state) : Counted job state.durable :=
  sound.counted _ List.mem_cons_self

theorem inCall_eq_some {next : ProgressSession → ProviderCall → Option Progression}
    {after : Progression} (stepped : state.inCall next = some after) :
    ∃ session call, state.session = some session ∧ session.call = some call ∧
      next session call = some after := by
  unfold Progression.inCall at stepped
  split at stepped
  · cases stepped
  · rename_i session attended
    obtain ⟨call, isCall, stepped⟩ := Option.bind_eq_some_iff.mp stepped
    exact ⟨session, call, attended, isCall, stepped⟩

theorem Counted.withStatus (counted : Counted job row) {status : JobStatus}
    (open' : status ≠ .completed) : Counted job { row with status } where
  processed := counted.processed
  unset := counted.unset
  total := counted.total
  completed done := absurd done open'

theorem run_sound (sound : Sound job state) {after : Progression}
    (stepped : job.step state .run = some after) : Sound job after := by
  simp only [step] at stepped
  split at stepped
  · cases stepped
    have counted : Counted job { state.durable with status := .running } :=
      sound.durable.withStatus nofun
    refine sound.commit counted ⟨le_rfl, le_rfl⟩ ?_
    rintro _ ⟨⟩
    exact ⟨rfl, counted, ⟨le_rfl, le_rfl⟩, nofun⟩
  · cases stepped

/-- An attempt that starts from the beginning has nothing behind it yet. -/
theorem attempt_sound (sound : Sound job state) {after : Progression}
    (undisturbed : job.Undisturbed state .attempt)
    (stepped : job.step state .attempt = some after) : Sound job after := by
  obtain ⟨session, isSession, stepped⟩ := Option.bind_eq_some_iff.mp stepped
  obtain ⟨running, counted, grows, -⟩ := sound.attended session isSession
  split at stepped
  · rename_i free
    simp only [Bool.and_eq_true, decide_eq_true_eq] at free
    cases stepped
    refine sound.withSession ?_
    rintro _ ⟨⟩
    refine ⟨running, counted, grows, ?_⟩
    rintro _ ⟨⟩
    have cursor : session.row.lastCursor.filter (· ≠ "") = session.row.lastCursor := by
      cases here : session.row.lastCursor with
      | none => rfl
      | some cursor => exact if_pos (decide_eq_true (counted.total cursor here).2)
    have fresh : session.row.createdEdges = 0 ∧
        (edgesUpTo job.edges session.row.lastCursor = 0 ∨
          job.Exhausted session.row.lastCursor) := by
      rcases undisturbed session isSession with unset | ⟨exhausted, created⟩
      · exact ⟨(counted.unset unset).2, Or.inl (unset ▸ rfl)⟩
      · exact ⟨created, Or.inr exhausted⟩
    exact {
      running := free.2
      processed := by
        simp only [ProviderCall.start, cursor]
        exact fresh.2.imp_left Eq.symm
      reached := by
        simp only [ProviderCall.start, cursor]
        exact le_rfl
      created := Nat.le_of_eq fresh.1
      unset := fun _ => rfl
      short := nofun
      synced := fun _ => Or.inl cursor.symm
      fetched := nofun }
  · cases stepped

theorem cursorKey_ne_empty (edge : LineageEdge) : cursorKey edge ≠ "" := by
  intro empty
  have lengths := congrArg String.length empty
  simp only [cursorKey, String.length_append] at lengths
  have bar : "|".length = 1 := rfl
  have nothing : "".length = 0 := rfl
  omega

theorem batch_sound (sound : Sound job state) {created : Nat} {after : Progression}
    (undisturbed : job.Undisturbed state (.batch created))
    (stepped : job.step state (.batch created) = some after) : Sound job after := by
  obtain ⟨session, call, isSession, isCall, stepped⟩ := inCall_eq_some stepped
  obtain ⟨running, counted, grows, inStep⟩ := sound.attended session isSession
  have inStep := inStep call isCall
  simp only at stepped
  split at stepped
  · cases stepped
  · obtain ⟨last, found, rfl⟩ := Option.map_eq_some_iff.mp stepped
    refine sound.withSession ?_
    rintro _ ⟨⟩
    refine ⟨running, counted, grows, ?_⟩
    rintro _ ⟨⟩
    have selected := List.mem_filter.mp (PagedQuery.mem_of_getLast_page found)
    have exact : call.processed = edgesUpTo job.edges call.currentCursor := by
      refine inStep.processed.resolve_right fun exhausted => ?_
      rw [exhausted last selected.1] at selected
      cases selected.2
    have reached : call.processed + (job.page session.row call.currentCursor).length =
        edgesUpTo job.edges (some (cursorKey last)) := by
      have onwards := job.query.passed_page found (undisturbed session isSession call isCall last found)
      rw [exact, edgesUpTo_eq, edgesUpTo_eq]
      exact onwards.symm
    have behind := inStep.reached
    exact {
      running := inStep.running
      processed := Or.inl reached
      reached := by
        simp only [ProviderCall.afterPage]
        omega
      created := Nat.le_add_right_of_le inStep.created
      unset := nofun
      short := fun short => job.query.exhausted_of_short (of_decide_eq_true short) found
      synced := nofun
      fetched := fun _ => ⟨reached, _, rfl, cursorKey_ne_empty last⟩ }

/-- The row that a checkpoint writes. -/
theorem checkpointed_counted (counted : Counted job row) (inStep : InStep job row call)
    (fetched : call.atCheckpoint = true) :
    Counted job (row.checkpointed call job.edges.length) ∧
      Grows row (row.checkpointed call job.edges.length) := by
  obtain ⟨processed, cursor, isCursor, nonempty⟩ := inStep.fetched fetched
  refine ⟨⟨processed, ?_, ?_, ?_⟩, ?_, ?_⟩
  · intro unset
    cases isCursor.symm.trans unset
  · intro other isOther
    cases isCursor.symm.trans isOther
    exact ⟨rfl, nonempty⟩
  · intro completed
    cases inStep.running.symm.trans completed
  · rw [counted.processed]
    exact inStep.reached.trans_eq processed.symm
  · simp only [ProgressRow.checkpointed]
    split
    · exact inStep.created
    · exact le_rfl

/-- A call goes on after its checkpoint when the row is up to date or another one is to come. -/
theorem InStep.passed (inStep : InStep job row call) {row' : ProgressRow}
    (running : row'.status = .running)
    (reached : edgesUpTo job.edges row'.lastCursor ≤ edgesUpTo job.edges call.currentCursor)
    (created : row'.createdEdges ≤ call.createdCount)
    (synced : row'.lastCursor = call.currentCursor ∨ ¬ job.Exhausted call.currentCursor)
    (isFirstCheckpoint : Bool) (batchesSinceCommit : Nat) :
    InStep job row' { call with atCheckpoint := false, isFirstCheckpoint, batchesSinceCommit } where
  running
  processed := inStep.processed
  reached
  created
  unset := inStep.unset
  short := inStep.short
  synced := fun _ => synced
  fetched := nofun

theorem checkpoint_sound (sound : Sound job state) {elapsed : Bool} {outcome : CommitOutcome}
    {after : Progression} (undisturbed : job.Undisturbed state (.checkpoint elapsed outcome))
    (stepped : job.step state (.checkpoint elapsed outcome) = some after) : Sound job after := by
  obtain ⟨session, call, isSession, isCall, stepped⟩ := inCall_eq_some stepped
  obtain ⟨running, counted, grows, inStep⟩ := sound.attended session isSession
  have inStep := inStep call isCall
  have behind := undisturbed session isSession call isCall
  split at stepped
  · rename_i fetched
    cases stepped
    obtain ⟨counted', grows'⟩ := checkpointed_counted counted inStep fetched
    have created : (session.row.checkpointed call job.edges.length).createdEdges ≤
        call.createdCount := by
      simp only [ProgressRow.checkpointed]
      split
      · exact le_rfl
      · exact inStep.created
    have upToDate (isFirstCheckpoint : Bool) (batchesSinceCommit : Nat) :
        InStep job (session.row.checkpointed call job.edges.length)
          { call with atCheckpoint := false, isFirstCheckpoint, batchesSinceCommit } := by
      refine inStep.passed ?_ le_rfl created (Or.inl rfl) _ _
      exact inStep.running
    unfold checkpoint
    simp only
    split
    · rename_i cancelled
      refine sound.withSession ?_
      rintro _ ⟨⟩
      refine ⟨running, counted, grows, ?_⟩
      rintro _ ⟨⟩
      exact inStep.passed inStep.running inStep.reached inStep.created
        (Or.inr (behind (Or.inl cancelled))) _ _
    · split
      · rename_i committing
        split
        · refine sound.commit counted' (grows.trans grows') ?_
          rintro _ ⟨⟩
          refine ⟨inStep.running, counted', ⟨le_rfl, le_rfl⟩, ?_⟩
          rintro _ ⟨⟩
          exact upToDate _ _
        · rename_i reloaded
          refine sound.withSession ?_
          rintro _ ⟨⟩
          split
          · rename_i lost
            refine ⟨running, sound.durable, ⟨le_rfl, le_rfl⟩, ?_⟩
            rintro _ ⟨⟩
            have lower := grows.1
            rw [sound.durable.processed, counted.processed] at lower
            exact inStep.passed running (lower.trans inStep.reached)
              (grows.2.trans inStep.created) (Or.inr (behind (Or.inr ⟨committing, lost ▸ rfl⟩))) _ _
          · refine ⟨running, counted', grows.trans grows', ?_⟩
            rintro _ ⟨⟩
            exact upToDate _ _
      · refine sound.withSession ?_
        rintro _ ⟨⟩
        refine ⟨running, counted', grows.trans grows', ?_⟩
        rintro _ ⟨⟩
        exact upToDate _ _
  · cases stepped

/-- A call that has come to its end has counted all edges, and so has the row. -/
theorem returns_sound (sound : Sound job state) {after : Progression}
    (stepped : job.step state .returns = some after) : Sound job after := by
  obtain ⟨session, call, isSession, isCall, stepped⟩ := inCall_eq_some stepped
  obtain ⟨running, counted, grows, inStep⟩ := sound.attended session isSession
  have inStep := inStep call isCall
  split at stepped
  · rename_i ended
    simp only [Bool.and_eq_true, Bool.not_eq_true', Bool.or_eq_true] at ended
    cases stepped
    have exhausted : job.Exhausted call.currentCursor := by
      rcases ended.2 with short | empty
      · exact inStep.short short
      · have positive : session.row.batchSize.1 ≠ 0 :=
          Nat.ne_of_gt (Nat.lt_of_lt_of_le (by decide) session.row.batchSize.2.1)
        have nothing : job.query.answer call.currentCursor = [] :=
          (List.take_eq_nil_iff.mp (List.isEmpty_iff.mp empty)).resolve_left positive
        have perm := job.query.perm call.currentCursor
        rw [nothing] at perm
        intro edge member
        exact eq_false_of_ne_true (List.filter_eq_nil_iff.mp perm.nil_eq.symm edge member)
    have synced : session.row.lastCursor = call.currentCursor :=
      (inStep.synced ended.1).resolve_right (not_not_intro exhausted)
    have all : session.row.processedEdges = job.edges.length := by
      rw [counted.processed, synced]
      exact edgesUpTo_of_exhausted exhausted
    refine sound.withSession ?_
    rintro _ ⟨⟩
    refine ⟨running, ⟨counted.processed, ?_, counted.total, fun _ => ?_⟩,
      ⟨grows.1, grows.2.trans inStep.created⟩, nofun⟩
    · intro unset
      exact ⟨(counted.unset unset).1, inStep.unset (synced.symm.trans unset)⟩
    · cases cursor : session.row.lastCursor with
      | none =>
          have total := (counted.unset cursor).1
          have none : session.row.processedEdges = 0 := by
            rw [counted.processed, cursor]
            rfl
          exact none.trans total.symm
      | some last => exact all.trans (counted.total last cursor).1.symm
  · cases stepped

theorem unattended_sound (sound : Sound job state) {allowed : JobStatus → Bool}
    {change : ProgressRow → ProgressRow} {after : Progression}
    (counted : Counted job (change state.durable)) (grows : Grows state.durable (change state.durable))
    (stepped : state.unattended allowed change = some after) : Sound job after := by
  unfold Progression.unattended at stepped
  split at stepped
  · cases stepped
    exact sound.commit counted grows nofun
  · cases stepped

theorem step_sound {event : ProgressEvent} {after : Progression} (sound : Sound job state)
    (undisturbed : job.Undisturbed state event) (stepped : job.step state event = some after) :
    Sound job after := by
  cases event with
  | run => exact run_sound sound stepped
  | attempt => exact attempt_sound sound undisturbed stepped
  | batch created => exact batch_sound sound undisturbed stepped
  | checkpoint elapsed outcome => exact checkpoint_sound sound undisturbed stepped
  | returns => exact returns_sound sound stepped
  | raises =>
      obtain ⟨session, call, isSession, -, stepped⟩ := inCall_eq_some stepped
      obtain ⟨running, counted, grows, -⟩ := sound.attended session isSession
      cases stepped
      refine sound.withSession ?_
      rintro _ ⟨⟩
      exact ⟨running, counted, grows, nofun⟩
  | commits =>
      obtain ⟨session, isSession, stepped⟩ := Option.bind_eq_some_iff.mp stepped
      obtain ⟨-, counted, grows, inStep⟩ := sound.attended session isSession
      split at stepped
      · rename_i free
        simp only [Bool.and_eq_true, decide_eq_true_eq] at free
        cases stepped
        refine sound.commit counted grows ?_
        rintro _ ⟨⟩
        exact ⟨free.2, counted, ⟨le_rfl, le_rfl⟩, inStep⟩
      · cases stepped
  | cancelRequested =>
      obtain ⟨session, isSession, rfl⟩ := Option.map_eq_some_iff.mp stepped
      obtain ⟨running, counted, grows, inStep⟩ := sound.attended session isSession
      refine sound.withSession ?_
      rintro _ ⟨⟩
      exact ⟨running, counted, grows, inStep⟩
  | stops status =>
      obtain ⟨session, isSession, stepped⟩ := Option.bind_eq_some_iff.mp stepped
      obtain ⟨running, counted, grows, -⟩ := sound.attended session isSession
      split at stepped
      · rename_i ending
        cases stepped
        refine sound.withSession ?_
        rintro _ ⟨⟩
        refine ⟨running, counted.withStatus ?_, grows, nofun⟩
        rintro rfl
        exact absurd ending (by decide)
      · cases stepped
  | closes =>
      obtain ⟨session, isSession, stepped⟩ := Option.bind_eq_some_iff.mp stepped
      obtain ⟨-, counted, grows, -⟩ := sound.attended session isSession
      split at stepped
      · cases stepped
        exact sound.commit counted grows nofun
      · cases stepped
  | crashes =>
      obtain ⟨session, -, rfl⟩ := Option.map_eq_some_iff.mp stepped
      exact sound.withSession nofun
  | marked status =>
      simp only [step] at stepped
      split at stepped
      · rename_i ending
        refine unattended_sound sound (sound.durable.withStatus ?_) ⟨le_rfl, le_rfl⟩ stepped
        rintro rfl
        exact absurd ending (by decide)
      · cases stepped
  | resumed batchSize =>
      simp only [step] at stepped
      refine unattended_sound sound ?_ ⟨le_rfl, le_rfl⟩ stepped
      obtain ⟨processed, unset, total, -⟩ := sound.durable
      exact ⟨processed, unset, total, nofun⟩

/-- The counts are right throughout every run that nothing disturbs. -/
theorem runs_count (job : Materialization) (batchSize : BatchSize) (events : List ProgressEvent)
    (undisturbed : Meets job.step job.Undisturbed (.start batchSize) events) :
    Always job.step job.Correct (.start batchSize) events :=
  always_of_meets (Sound job) (fun _ _ _ => step_sound) (fun _ => Sound.correct)
    (start_sound batchSize) undisturbed

def twoEdges : Materialization where
  graph := [⟨"a", "b", "FLOWS_TO", none⟩, ⟨"b", "c", "FLOWS_TO", none⟩]
  containmentTypes := []
  lineageTypes := ["FLOWS_TO"]
  query := .ofSorted _ (by decide +kernel)

theorem runs_count_twoEdges :
    Always twoEdges.step twoEdges.Correct (.start ⟨100, by decide⟩)
      [.run, .attempt, .raises, .attempt, .batch 2, .checkpoint false .landed, .returns, .closes] :=
  runs_count twoEdges _ _ (by decide +kernel)

/-- A hundred parallel edges and one more. -/
def hundredAndOne : Materialization where
  graph := (List.range 100).map (fun id => ⟨"a", "b", "FLOWS_TO", some (toString id)⟩) ++
    [⟨"b", "c", "FLOWS_TO", none⟩]
  containmentTypes := []
  lineageTypes := ["FLOWS_TO"]
  query := .ofSorted _ (PagedQuery.pairwise_of_isChain (by decide +kernel))

/-- A retry counts from 0 again. -/
theorem retry_counts_anew :
    ¬ Always hundredAndOne.step hundredAndOne.Correct (.start ⟨100, by decide⟩)
      [.run, .attempt, .batch 1, .checkpoint false .landed, .raises, .commits, .attempt, .batch 1,
        .checkpoint false .landed] := by
  intro always
  have counts : (run hundredAndOne.step (.start ⟨100, by decide⟩)
      [.run, .attempt, .batch 1, .checkpoint false .landed, .raises, .commits, .attempt, .batch 1,
        .checkpoint false .landed]).map (fun state => state.committed.map
          ProgressRow.processedEdges) = some [1, 100, 100, 0, 0] := by
    decide +kernel
  obtain ⟨last, ran, counts⟩ := Option.map_eq_some_iff.mp counts
  have grows : (last.committed.map ProgressRow.processedEdges).Pairwise (fun a b => b ≤ a) :=
    List.pairwise_map.mpr ((always_last always ran).grows.imp And.left)
  rw [counts] at grows
  exact absurd grows (by decide)

end Materialization

end Univiz.Aggregation
