import Univiz.Aggregation.Checkpoints
import Univiz.Aggregation.Retries
import Univiz.Providers.Materializer

namespace Univiz.Aggregation.CancelSignals

open Univiz.Data Univiz.Falkor

/-! How the cancel event of a job gets through `AggregationWorker.run` over the FalkorDB provider.

The loops of one process only give way to each other at an await, so a step leads from one await
to the next, and the event is set between two steps.  A call of `progress_callback` counts as an
await also where it does not suspend. -/

structure Setup where
  bulkRebuild : Bool
  containmentTypes : List String
  lineageTypes : List String
  batchSize : BatchSize
  bulkCreateBatchSize : BatchSize
  maxQuiesceEvents : Nat
  job : Job
  observedAt : String

/-- A call of `progress_callback`, with what the provider has at hand.  A page is short when it is
the last one. -/
inductive Callback where
  | page (short : Bool)
  | wiping
  | scanning (pairData : PairData) (short : Bool)
  | resolvingLabels (pairData : PairData)
  | creating (pairData : PairData) (batches : List (List Pair))
  | finalizing (pairData : PairData)
  | finished

/-- What the provider waits for.  The heartbeat after a batch of writes belongs to the batch: it
does not look at the cancel event, and its errors are caught. -/
inductive Await where
  | counts
  | fetches
  | chains (rows : List LineageEdge)
  | adds (contributed : List Contribution) (short : Bool)
  | merges (rest : List Pair) (short : Bool)
  | probes
  | deletes
  | purges
  | scans (pairData : PairData)
  | expands (pairData : PairData) (rows : List LineageEdge)
  | resolves (pairData : PairData)
  | creates (pairData : PairData) (rest : List (List Pair))
  | sends (rest : List (Σ _ : Pair, PairMeta))
  | reports (callback : Callback)
  | stamps

/-- The provider catches the errors of the others. -/
def Await.mayRaise : Await → Bool
  | purges | sends _ | reports _ | stamps => false
  | _ => true

/-- Between the attempts the worker sleeps.  Then the run is in the branch for the ending, up to
its last commit. -/
inductive Stage where
  | preparing
  | calling (await : Await)
  | waiting
  | concluding
  | closed

/-- A run after its first commit.  `lastCallback` says whether the event was set when the latest
`progress_callback` was entered, and `startedLate` whether a batch of AGGREGATED edges has been
started with the event set. -/
structure State where
  stage : Stage
  cancelled : Bool
  lastCallback : Bool
  startedLate : Bool
  endings : List (Outcome Unit)
  row : JobStatus
  stored : JobStatus

/-- What the graph, Redis, the database and the clock do next.  A sub-batch of MERGEs has the size
that the provider has adapted it to. -/
inductive Event where
  | cancelRequested
  | prepared
  | counted
  | fetched (rows : List LineageEdge)
  | expanded (ancestors : Urn → List Urn)
  | added (replies : List Bool) (size : Nat)
  | merged (size : Nat)
  | probed (found : Bool)
  | deleted (count : Nat)
  | purged
  | resolved (config : RebuildConfig)
  | created
  | sent
  | reported
  | stamped
  | raises (failure : Failure)
  | retries
  | fails
  | timesOut
  | interrupted
  | closes (landed : Bool)

def start : State where
  stage := .preparing
  cancelled := false
  lastCallback := false
  startedLate := false
  endings := []
  row := .running
  stored := .running

/-- The branch of `run` for the way in which the materialisation has ended. -/
def branch : Outcome Unit → JobStatus
  | .returned _ => .completed
  | .raised (.jobCancelled ..) => .cancelled
  | .raised _ => .failed

namespace State

variable (state : State)

def calling (await : Await) : State := { state with stage := .calling await }

def enters (callback : Callback) : State :=
  { state with stage := .calling (.reports callback), lastCallback := state.cancelled }

/-- A batch of AGGREGATED edges is sent to the graph. -/
def writes (await : Await) : State :=
  { state with
    stage := .calling await
    startedLate := state.startedLate || state.cancelled }

def concludes (status : JobStatus) : State :=
  { state with stage := .concluding, row := status }

end State

namespace Setup

variable (setup : Setup) (state : State)

def isShort (rows : List LineageEdge) : Bool := rows.length < setup.batchSize.1

/-- How `_materialize_with_retries` ends after the given calls. -/
def result (endings : List (Outcome Unit)) : Option (Outcome Unit) :=
  (materializeWithRetries setup.maxQuiesceEvents setup.job endings).result

def callEnds (outcome : Outcome Unit) : State :=
  let ended := { state with endings := state.endings ++ [outcome] }
  match setup.result ended.endings with
  | none => { ended with stage := .waiting }
  | some result => ended.concludes (branch result)

/-- `JobCancelled`; its texts only get into messages. -/
def signal : Failure := .jobCancelled setup.job.id setup.observedAt

/-- `if should_cancel(): raise JobCancelled(...)`. -/
def checked (next : State) : State :=
  if state.cancelled then setup.callEnds state (.raised setup.signal) else next

/-- The loop over `merge_batch`.  After it the page is reported. -/
def mergesOn (pairs : List Pair) (size : Nat) (short : Bool) : State :=
  if pairs = [] then state.enters (.page short)
  else setup.checked state (state.writes (.merges (pairs.drop size) short))

def deletesOn : State := setup.checked state (state.calling .deletes)

/-- After the scan.  Without pairs the provider returns at once. -/
def scanEnds (pairData : PairData) : State :=
  if pairData.entries.isEmpty then setup.callEnds state (.returned ())
  else state.enters (.resolvingLabels pairData)

/-- The rows of `_bulk_create_aggregated_edges_from_pairs`, grouped by the labels of their ends
and cut into batches. -/
def batches (config : RebuildConfig) (pairData : PairData) : List (List Pair) :=
  let grouped := pairData.entries.foldl
    (fun groups entry => file groups (config.labelOf entry.1.1, config.labelOf entry.1.2) entry.1)
    OrderedMap.empty
  let labelled := grouped.entries.filter fun group =>
    group.1.1.getD "" ≠ "" && group.1.2.getD "" ≠ ""
  labelled.flatMap fun group => Providers.chunks group.2 setup.bulkCreateBatchSize.1

def createsOn (pairData : PairData) : List (List Pair) → State
  | [] => state.enters (.finalizing pairData)
  | _ :: rest => setup.checked state (state.writes (.creates pairData rest))

/-- `_rebuild_idempotency_state_from_pairs`: a pipeline has the members of 500 pairs.  After the
last one the provider reports for the last time. -/
def sendsOn : Nat → List (Σ _ : Pair, PairMeta) → State
  | 0, [] => state.enters .finished
  | _ + 1, [] => state.calling (.sends [])
  | count, entry :: rest =>
      if count = 0 ∧ state.cancelled then setup.callEnds state (.raised setup.signal)
      else if entry.2.contributors = [] then sendsOn count rest
      else if count + 1 < 500 then sendsOn (count + 1) rest
      else state.calling (.sends rest)

/-- What follows a callback, which may have raised. -/
def resumes : Callback → State
  | .page short => state.calling (if short then .stamps else .fetches)
  | .wiping => state.calling .probes
  | .scanning pairData short =>
      if short then setup.scanEnds state pairData else state.calling (.scans pairData)
  | .resolvingLabels pairData => state.calling (.resolves pairData)
  | .creating pairData batches => setup.createsOn state pairData batches
  | .finalizing pairData => setup.sendsOn state 0 pairData.entries
  | .finished => state.calling .stamps

def proceeds : Await → Event → Option State
  | .counts, .counted =>
      match typeFilter setup.containmentTypes setup.lineageTypes with
      | none => some (setup.callEnds state (.returned ()))
      | some _ =>
          some (if setup.bulkRebuild then state.enters .wiping else state.calling .fetches)
  | .fetches, .fetched rows =>
      some (state.calling (if rows.isEmpty then .stamps else .chains rows))
  | .chains rows, .expanded ancestors =>
      let contributed := contributions ancestors rows
      some (setup.checked state (state.calling (.adds contributed (setup.isShort rows))))
  | .adds contributed short, .added replies size =>
      some (setup.mergesOn state (newPairs contributed replies) size short)
  | .merges rest short, .merged size => some (setup.mergesOn state rest size short)
  | .probes, .probed found =>
      some (if found then setup.deletesOn state else state.calling .purges)
  | .deletes, .deleted count =>
      some (if count = 0 then state.calling .purges else setup.deletesOn state)
  | .purges, .purged => some (state.enters (.scanning ∅ false))
  | .scans pairData, .fetched rows =>
      some (if rows.isEmpty then setup.scanEnds state pairData
        else setup.checked state (state.calling (.expands pairData rows)))
  | .expands pairData rows, .expanded ancestors =>
      some (state.enters (.scanning (accumulateRows ancestors pairData rows) (setup.isShort rows)))
  | .resolves pairData, .resolved config =>
      some (state.enters (.creating pairData (setup.batches config pairData)))
  | .creates pairData rest, .created => some (state.enters (.creating pairData rest))
  | .sends rest, .sent => some (setup.sendsOn state 0 rest)
  | .reports callback, .reported => some (setup.resumes state callback)
  | .stamps, .stamped => some (setup.callEnds state (.returned ()))
  | _, _ => none

def isCancel : Failure → Bool
  | .jobCancelled .. => true
  | _ => false

/-- `_JOB_TIMEOUT_SECS` runs over all attempts.  A worker that is interrupted leaves the row as it
was, and the branch for a success may still fail. -/
def step : Event → Option State
  | .cancelRequested =>
      match state.stage with
      | .closed => none
      | _ => some { state with cancelled := true }
  | .prepared =>
      match state.stage with
      | .preparing => if setup.lineageTypes.isEmpty then none else some (state.calling .counts)
      | _ => none
  | .retries =>
      match state.stage with
      | .waiting => some (state.calling .counts)
      | _ => none
  | .raises failure =>
      match state.stage with
      | .calling await =>
          if await.mayRaise && !isCancel failure then
            some (setup.callEnds state (.raised failure))
          else none
      | _ => none
  | .fails =>
      match state.stage with
      | .preparing | .waiting => some (state.concludes .failed)
      | .concluding => if state.row = .completed then some (state.concludes .failed) else none
      | _ => none
  | .timesOut =>
      match state.stage with
      | .calling _ | .waiting => some (state.concludes .failed)
      | _ => none
  | .interrupted =>
      match state.stage with
      | .preparing | .calling _ | .waiting => some { state with stage := .closed }
      | _ => none
  | .closes landed =>
      match state.stage with
      | .concluding =>
          some { state with
            stage := .closed
            stored := if landed then state.row else state.stored }
      | _ => none
  | event =>
      match state.stage with
      | .calling await => setup.proceeds state await event
      | _ => none

/-- The materialisation has ended with `JobCancelled`. -/
def EndsCancelled : Prop :=
  ∃ jobId observedAt, setup.result state.endings = some (.raised (.jobCancelled jobId observedAt))

/-- No batch starts once the event is set; and when it was set at the last callback, or when the
materialisation has ended with `JobCancelled`, then that is how it ends, and the job is stored as
cancelled. -/
structure Honours (state : State) : Prop where
  batches : state.startedLate = false
  ending : state.lastCallback = true → state.stage = .concluding ∨ state.stage = .closed →
    setup.EndsCancelled state
  status : state.lastCallback = true ∨ setup.EndsCancelled state →
    state.stored ≠ .completed ∧ state.stored ≠ .failed ∧
      (state.stage = .closed → state.stored = .cancelled)

/-- Where a callback is entered after the last check, the event is not set; and where a query finds
no more rows, it was not set at the latest callback. -/
def heedsCall : Await → Event → Bool
  | .adds contributed true, .added replies _ =>
      !state.cancelled || !(newPairs contributed replies).isEmpty
  | .merges [] true, .merged _ => !state.cancelled
  | .expands pairData rows, .expanded ancestors =>
      !state.cancelled || !setup.isShort rows ||
        !(accumulateRows ancestors pairData rows).entries.isEmpty
  | .sends [], .sent => !state.cancelled
  | .fetches, .fetched [] => !state.lastCallback
  | .scans pairData, .fetched [] => !state.lastCallback || !pairData.entries.isEmpty
  | _, _ => true

/-- When the event was set at the latest callback, an error leads to another attempt, and the time
does not run out; and the last commit of a cancelled job takes effect. -/
def heeds (event : Event) : Bool :=
  match state.stage, event with
  | .calling _, .raises failure =>
      !state.lastCallback || (setup.result (state.endings ++ [.raised failure])).isNone
  | .calling _, .timesOut | .calling _, .interrupted | .waiting, .fails | .waiting, .timesOut
  | .waiting, .interrupted => !state.lastCallback
  | .calling await, event => setup.heedsCall state await event
  | .concluding, .closes landed => state.row ≠ .cancelled || landed
  | _, _ => true

end Setup

/-- What is still to come between an await and the end of the call.  Pairs that have been found
lead to another check. -/
def Await.Sound (lastCallback : Bool) : Await → Prop
  | stamps | reports (.page true) | reports .finished => lastCallback = false
  | reports (.scanning pairData true) => lastCallback = true → pairData.entries ≠ []
  | resolves pairData | creates pairData _ | reports (.resolvingLabels pairData)
  | reports (.creating pairData _) | reports (.finalizing pairData) => pairData.entries ≠ []
  | _ => True

/-- The materialisation has not ended. -/
structure Pending (setup : Setup) (state : State) : Prop where
  row : state.row = .running
  stored : state.stored = .running
  awaits : setup.result state.endings = none
  requested : state.lastCallback = true → state.cancelled = true
  selects : typeFilter setup.containmentTypes setup.lineageTypes = none →
    state.lastCallback = false

/-- What a materialisation that is over leaves, and the status that the job has then. -/
structure Ended (setup : Setup) (state : State) (status : JobStatus) : Prop where
  ending : state.lastCallback = true → setup.EndsCancelled state
  status : setup.EndsCancelled state → status = .cancelled

def Stage.Sound (setup : Setup) (state : State) : Stage → Prop
  | preparing => Pending setup state ∧ state.lastCallback = false
  | calling await => Pending setup state ∧ await.Sound state.lastCallback ∧
      (await = .counts ∨ typeFilter setup.containmentTypes setup.lineageTypes ≠ none)
  | waiting => Pending setup state
  | concluding => Ended setup state state.row ∧ state.stored = .running
  | closed => Ended setup state state.stored

structure Sound (setup : Setup) (state : State) : Prop where
  batches : state.startedLate = false
  stage : state.stage.Sound setup state

variable {setup : Setup} {state : State}

theorem start_sound : Sound setup start :=
  ⟨rfl, ⟨rfl, rfl, rfl, nofun, fun _ => rfl⟩, rfl⟩

theorem Pending.undecided (pending : Pending setup state) : ¬ setup.EndsCancelled state := by
  intro ⟨jobId, observedAt, ended⟩
  cases pending.awaits.symm.trans ended

theorem Pending.honours (pending : Pending setup state) (batches : state.startedLate = false)
    (concluding : state.stage ≠ .concluding) (closed : state.stage ≠ .closed) :
    setup.Honours state := by
  refine ⟨batches, fun _ now => absurd now (not_or_intro concluding closed), fun _ => ?_⟩
  rw [pending.stored]
  exact ⟨nofun, nofun, fun now => absurd now closed⟩

theorem Sound.honours (sound : Sound setup state) : setup.Honours state := by
  obtain ⟨batches, sound⟩ := sound
  cases stage : state.stage with
  | preparing =>
      rw [stage] at sound
      exact sound.1.honours batches (by simp [stage]) (by simp [stage])
  | calling await =>
      rw [stage] at sound
      exact sound.1.honours batches (by simp [stage]) (by simp [stage])
  | waiting =>
      rw [stage] at sound
      exact Pending.honours sound batches (by simp [stage]) (by simp [stage])
  | concluding =>
      rw [stage] at sound
      refine ⟨batches, fun set _ => sound.1.ending set, fun _ => ?_⟩
      rw [sound.2, stage]
      exact ⟨nofun, nofun, nofun⟩
  | closed =>
      rw [stage] at sound
      refine ⟨batches, fun set _ => sound.ending set, fun either => ?_⟩
      rw [sound.status (either.elim sound.ending id)]
      exact ⟨nofun, nofun, fun _ => rfl⟩

/-- A call of the provider under way, past the query that counts. -/
structure InCall (setup : Setup) (state : State) : Prop where
  pending : Pending setup state
  batches : state.startedLate = false
  selects : typeFilter setup.containmentTypes setup.lineageTypes ≠ none

namespace InCall

variable (inCall : InCall setup state)
include inCall

theorem calling {await : Await} (sound : await.Sound state.lastCallback) :
    Sound setup (state.calling await) := by
  obtain ⟨⟨row, stored, awaits, requested, unselected⟩, batches, selects⟩ := inCall
  exact ⟨batches, ⟨row, stored, awaits, requested, unselected⟩, sound, .inr selects⟩

theorem enters {callback : Callback} (sound : (Await.reports callback).Sound state.cancelled) :
    Sound setup (state.enters callback) := by
  obtain ⟨⟨row, stored, awaits, requested, unselected⟩, batches, selects⟩ := inCall
  exact ⟨batches, ⟨row, stored, awaits, id, fun none => absurd none selects⟩, sound, .inr selects⟩

theorem writes {await : Await} (unset : state.cancelled = false)
    (sound : await.Sound state.lastCallback) : Sound setup (state.writes await) := by
  obtain ⟨⟨row, stored, awaits, requested, unselected⟩, batches, selects⟩ := inCall
  refine ⟨?_, ⟨row, stored, awaits, requested, unselected⟩, sound, .inr selects⟩
  simp only [State.writes, batches, unset, Bool.or_self]

end InCall

theorem result_signal (awaits : setup.result state.endings = none) :
    setup.result (state.endings ++ [.raised setup.signal]) = some (.raised setup.signal) :=
  attemptLoop_cancelled awaits

/-- A call that ends when the event was set at the latest callback is cancelled or repeated. -/
theorem callEnds_sound {outcome : Outcome Unit} (pending : Pending setup state)
    (batches : state.startedLate = false)
    (heeds : state.lastCallback = true → outcome = .raised setup.signal ∨
      setup.result (state.endings ++ [outcome]) = none) :
    Sound setup (setup.callEnds state outcome) := by
  obtain ⟨row, stored, awaits, requested, selects⟩ := pending
  unfold Setup.callEnds
  simp only
  split
  · rename_i another
    exact ⟨batches, row, stored, another, requested, selects⟩
  · rename_i result ended
    refine ⟨batches, ⟨?_, ?_⟩, stored⟩
    · intro set
      rcases heeds set with rfl | another
      · exact ⟨_, _, result_signal awaits⟩
      · cases another.symm.trans ended
    · intro ⟨jobId, observedAt, cancelled⟩
      cases ended.symm.trans cancelled
      rfl

theorem signal_sound (pending : Pending setup state) (batches : state.startedLate = false) :
    Sound setup (setup.callEnds state (.raised setup.signal)) :=
  callEnds_sound pending batches fun _ => .inl rfl

section Call

variable (inCall : InCall setup state)
include inCall

theorem checked_sound {next : State} (sound : state.cancelled = false → Sound setup next) :
    Sound setup (setup.checked state next) := by
  unfold Setup.checked
  split
  · exact signal_sound inCall.pending inCall.batches
  · rename_i unset
    exact sound (Bool.eq_false_of_not_eq_true unset)

theorem returned_sound (unset : state.lastCallback = false) :
    Sound setup (setup.callEnds state (.returned ())) := by
  refine callEnds_sound inCall.pending inCall.batches fun set => ?_
  cases unset.symm.trans set

theorem mergesOn_sound {pairs : List Pair} {size : Nat} {short : Bool}
    (heeds : pairs = [] → short = true → state.cancelled = false) :
    Sound setup (setup.mergesOn state pairs size short) := by
  unfold Setup.mergesOn
  split
  · rename_i done
    refine inCall.enters ?_
    cases short with
    | true => exact heeds done rfl
    | false => trivial
  · exact checked_sound inCall fun unset => inCall.writes unset trivial

theorem deletesOn_sound : Sound setup (setup.deletesOn state) :=
  checked_sound inCall fun _ => inCall.calling trivial

theorem scanEnds_sound {pairData : PairData}
    (heeds : pairData.entries = [] → state.lastCallback = false) :
    Sound setup (setup.scanEnds state pairData) := by
  unfold Setup.scanEnds
  split
  · rename_i none
    exact returned_sound inCall (heeds (List.isEmpty_iff.mp none))
  · rename_i some
    exact inCall.enters fun none => some (List.isEmpty_iff.mpr none)

theorem createsOn_sound {pairData : PairData} (found : pairData.entries ≠ [])
    (batches : List (List Pair)) : Sound setup (setup.createsOn state pairData batches) := by
  cases batches with
  | nil => exact inCall.enters found
  | cons batch rest => exact checked_sound inCall fun unset => inCall.writes unset found

/-- The first pair of a pipeline comes with a check. -/
theorem sendsOn_sound {count : Nat} {rest : List (Σ _ : Pair, PairMeta)}
    (heeds : state.cancelled = true → count = 0 ∧ rest ≠ []) :
    Sound setup (setup.sendsOn state count rest) := by
  induction rest generalizing count with
  | nil =>
      have unset : state.cancelled = false :=
        Bool.eq_false_of_not_eq_true fun set => (heeds set).2 rfl
      cases count with
      | zero => exact inCall.enters unset
      | succ count => exact inCall.calling trivial
  | cons entry rest ih =>
      rw [Setup.sendsOn]
      split
      · exact signal_sound inCall.pending inCall.batches
      · rename_i passed
        have unset : state.cancelled ≠ true := fun set => passed ⟨(heeds set).1, set⟩
        split
        · exact ih fun set => absurd set unset
        · split
          · exact ih fun set => absurd set unset
          · exact inCall.calling trivial

theorem resumes_sound {callback : Callback}
    (sound : (Await.reports callback).Sound state.lastCallback) :
    Sound setup (setup.resumes state callback) := by
  cases callback with
  | page short =>
      refine inCall.calling ?_
      cases short with
      | true => exact sound
      | false => trivial
  | wiping => exact inCall.calling trivial
  | scanning pairData short =>
      cases short with
      | true =>
          refine scanEnds_sound inCall fun none => Bool.eq_false_of_not_eq_true fun set => ?_
          exact sound set none
      | false => exact inCall.calling trivial
  | resolvingLabels pairData => exact inCall.calling sound
  | creating pairData batches => exact createsOn_sound inCall sound batches
  | finalizing pairData => exact sendsOn_sound inCall fun _ => ⟨rfl, sound⟩
  | finished => exact inCall.calling sound

theorem chains_sound {rows : List LineageEdge} (ancestors : Urn → List Urn) :
    Sound setup (setup.checked state
      (state.calling (.adds (contributions ancestors rows) (setup.isShort rows)))) :=
  checked_sound inCall fun _ => inCall.calling trivial

theorem fetched_sound {rows : List LineageEdge}
    (heeds : setup.heedsCall state .fetches (.fetched rows) = true) :
    Sound setup (state.calling (if rows.isEmpty then .stamps else .chains rows)) := by
  cases rows with
  | nil => exact inCall.calling ((Bool.not_eq_true' _).mp heeds)
  | cons row rows => exact inCall.calling trivial

theorem added_sound {contributed : List Contribution} {short : Bool} {replies : List Bool}
    {size : Nat}
    (heeds : setup.heedsCall state (.adds contributed short) (.added replies size) = true) :
    Sound setup (setup.mergesOn state (newPairs contributed replies) size short) := by
  refine mergesOn_sound inCall ?_
  rintro nothing rfl
  simpa only [Setup.heedsCall, nothing, List.isEmpty_nil, Bool.not_true, Bool.or_false,
    Bool.not_eq_true'] using heeds

theorem merged_sound {rest : List Pair} {short : Bool} {size : Nat}
    (heeds : setup.heedsCall state (.merges rest short) (.merged size) = true) :
    Sound setup (setup.mergesOn state rest size short) := by
  refine mergesOn_sound inCall ?_
  rintro rfl rfl
  exact (Bool.not_eq_true' _).mp heeds

theorem scanned_sound {pairData : PairData} {rows : List LineageEdge}
    (heeds : setup.heedsCall state (.scans pairData) (.fetched rows) = true) :
    Sound setup (if rows.isEmpty then setup.scanEnds state pairData
      else setup.checked state (state.calling (.expands pairData rows))) := by
  cases rows with
  | nil =>
      refine scanEnds_sound inCall fun nothing => ?_
      simpa only [Setup.heedsCall, nothing, List.isEmpty_nil, Bool.not_true, Bool.or_false,
        Bool.not_eq_true'] using heeds
  | cons row rows => exact checked_sound inCall fun _ => inCall.calling trivial

theorem expanded_sound {pairData : PairData} {rows : List LineageEdge}
    {ancestors : Urn → List Urn}
    (heeds : setup.heedsCall state (.expands pairData rows) (.expanded ancestors) = true) :
    Sound setup (state.enters
      (.scanning (accumulateRows ancestors pairData rows) (setup.isShort rows))) := by
  refine inCall.enters ?_
  cases short : setup.isShort rows with
  | true =>
      intro set nothing
      simp [Setup.heedsCall, set, short, nothing] at heeds
  | false => trivial

theorem sent_sound {rest : List (Σ _ : Pair, PairMeta)}
    (heeds : setup.heedsCall state (.sends rest) .sent = true) :
    Sound setup (setup.sendsOn state 0 rest) := by
  refine sendsOn_sound inCall fun set => ⟨rfl, ?_⟩
  rintro rfl
  cases ((Bool.not_eq_true' _).mp heeds).symm.trans set

theorem proceeds_sound {await : Await} {event : Event} {after : State}
    (sound : await.Sound state.lastCallback) (notCounts : await ≠ .counts)
    (heeds : setup.heedsCall state await event = true)
    (stepped : setup.proceeds state await event = some after) : Sound setup after := by
  match await, event with
  | .counts, .counted => exact absurd rfl notCounts
  | .fetches, .fetched rows =>
      cases stepped
      exact fetched_sound inCall heeds
  | .chains rows, .expanded ancestors =>
      cases stepped
      exact chains_sound inCall ancestors
  | .adds contributed short, .added replies size =>
      cases stepped
      exact added_sound inCall heeds
  | .merges rest short, .merged size =>
      cases stepped
      exact merged_sound inCall heeds
  | .probes, .probed found =>
      cases stepped
      split
      · exact deletesOn_sound inCall
      · exact inCall.calling trivial
  | .deletes, .deleted count =>
      cases stepped
      split
      · exact inCall.calling trivial
      · exact deletesOn_sound inCall
  | .purges, .purged =>
      cases stepped
      exact inCall.enters trivial
  | .scans pairData, .fetched rows =>
      cases stepped
      exact scanned_sound inCall heeds
  | .expands pairData rows, .expanded ancestors =>
      cases stepped
      exact expanded_sound inCall heeds
  | .resolves pairData, .resolved config =>
      cases stepped
      exact inCall.enters sound
  | .creates pairData rest, .created =>
      cases stepped
      exact inCall.enters sound
  | .sends rest, .sent =>
      cases stepped
      exact sent_sound inCall heeds
  | .reports callback, .reported =>
      cases stepped
      exact resumes_sound inCall sound
  | .stamps, .stamped =>
      cases stepped
      exact returned_sound inCall sound

end Call

theorem counted_sound {after : State} (pending : Pending setup state)
    (batches : state.startedLate = false)
    (stepped : setup.proceeds state .counts .counted = some after) : Sound setup after := by
  simp only [Setup.proceeds] at stepped
  split at stepped
  · rename_i nothing
    cases stepped
    refine callEnds_sound pending batches fun set => ?_
    cases (pending.selects nothing).symm.trans set
  · rename_i filter selected
    cases stepped
    have inCall : InCall setup state :=
      ⟨pending, batches, fun nothing => by cases selected.symm.trans nothing⟩
    split
    · exact inCall.enters trivial
    · exact inCall.calling trivial

theorem Pending.counts (pending : Pending setup state) (batches : state.startedLate = false) :
    Sound setup (state.calling .counts) := by
  obtain ⟨row, stored, awaits, requested, selects⟩ := pending
  exact ⟨batches, ⟨row, stored, awaits, requested, selects⟩, trivial, .inl rfl⟩

/-- A materialisation that is broken off has not ended with `JobCancelled`. -/
theorem Pending.ended (pending : Pending setup state) (unset : state.lastCallback = false)
    (status : JobStatus) : Ended setup state status where
  ending set := by cases unset.symm.trans set
  status cancelled := absurd cancelled pending.undecided

theorem Pending.concludes (pending : Pending setup state) (batches : state.startedLate = false)
    (unset : state.lastCallback = false) : Sound setup (state.concludes .failed) := by
  obtain ⟨ending, status⟩ := pending.ended unset .failed
  exact ⟨batches, ⟨ending, status⟩, pending.stored⟩

theorem Pending.closed (pending : Pending setup state) (batches : state.startedLate = false)
    (unset : state.lastCallback = false) : Sound setup { state with stage := .closed } := by
  obtain ⟨ending, status⟩ := pending.ended unset state.stored
  exact ⟨batches, ending, status⟩

theorem requested_sound {after : State} (sound : Sound setup state)
    (stepped : setup.step state .cancelRequested = some after) : Sound setup after := by
  obtain ⟨stage, cancelled, lastCallback, startedLate, endings, row, stored⟩ := state
  obtain ⟨batches, sound⟩ := sound
  have pending (held : Pending setup
      ⟨stage, cancelled, lastCallback, startedLate, endings, row, stored⟩) :
      Pending setup ⟨stage, true, lastCallback, startedLate, endings, row, stored⟩ :=
    ⟨held.row, held.stored, held.awaits, fun _ => rfl, held.selects⟩
  cases stage with
  | preparing =>
      cases stepped
      exact ⟨batches, pending sound.1, sound.2⟩
  | calling await =>
      cases stepped
      exact ⟨batches, pending sound.1, sound.2⟩
  | waiting =>
      cases stepped
      exact ⟨batches, pending sound⟩
  | concluding =>
      cases stepped
      exact ⟨batches, ⟨sound.1.ending, sound.1.status⟩, sound.2⟩
  | closed => cases stepped

theorem call_sound {await : Await} {event : Event} {after : State}
    (held : (Stage.calling await).Sound setup state) (batches : state.startedLate = false)
    (heeds : setup.heedsCall state await event = true)
    (stepped : setup.proceeds state await event = some after) : Sound setup after := by
  obtain ⟨pending, sound, selects⟩ := held
  by_cases counts : await = .counts
  · subst counts
    cases event with
    | counted => exact counted_sound pending batches stepped
    | _ => cases stepped
  · exact proceeds_sound ⟨pending, batches, selects.resolve_left counts⟩ sound counts heeds stepped

theorem raises_sound {failure : Failure} (pending : Pending setup state)
    (batches : state.startedLate = false)
    (heeds : (!state.lastCallback ||
      (setup.result (state.endings ++ [.raised failure])).isNone) = true) :
    Sound setup (setup.callEnds state (.raised failure)) := by
  refine callEnds_sound pending batches fun set => .inr ?_
  rw [set, Bool.not_true, Bool.false_or, Option.isNone_iff_eq_none] at heeds
  exact heeds

theorem calling_sound {await : Await} {event : Event} {after : State}
    (stage : state.stage = .calling await) (sound : Sound setup state)
    (heeds : setup.heeds state event = true) (stepped : setup.step state event = some after) :
    Sound setup after := by
  obtain ⟨batches, held⟩ := id sound
  rw [stage] at held
  simp only [Setup.heeds, stage] at heeds
  cases event with
  | cancelRequested => exact requested_sound sound stepped
  | prepared | retries | fails | closes landed =>
      simp only [Setup.step, stage, reduceCtorEq] at stepped
  | raises failure =>
      simp only [Setup.step, stage] at stepped
      split at stepped
      · cases stepped
        exact raises_sound held.1 batches heeds
      · cases stepped
  | timesOut =>
      simp only [Setup.step, stage, Option.some.injEq] at stepped
      exact stepped ▸ held.1.concludes batches ((Bool.not_eq_true' _).mp heeds)
  | interrupted =>
      simp only [Setup.step, stage, Option.some.injEq] at stepped
      exact stepped ▸ held.1.closed batches ((Bool.not_eq_true' _).mp heeds)
  | _ =>
      simp only [Setup.step, stage] at stepped
      exact call_sound held batches heeds stepped

theorem preparing_sound {event : Event} {after : State} (stage : state.stage = .preparing)
    (sound : Sound setup state) (stepped : setup.step state event = some after) :
    Sound setup after := by
  obtain ⟨batches, held⟩ := id sound
  rw [stage] at held
  cases event with
  | cancelRequested => exact requested_sound sound stepped
  | prepared =>
      simp only [Setup.step, stage] at stepped
      split at stepped
      · cases stepped
      · cases stepped
        exact held.1.counts batches
  | fails =>
      simp only [Setup.step, stage, Option.some.injEq] at stepped
      exact stepped ▸ held.1.concludes batches held.2
  | interrupted =>
      simp only [Setup.step, stage, Option.some.injEq] at stepped
      exact stepped ▸ held.1.closed batches held.2
  | _ => simp only [Setup.step, stage, reduceCtorEq] at stepped

theorem waiting_sound {event : Event} {after : State} (stage : state.stage = .waiting)
    (sound : Sound setup state) (heeds : setup.heeds state event = true)
    (stepped : setup.step state event = some after) : Sound setup after := by
  obtain ⟨batches, held⟩ := id sound
  rw [stage] at held
  simp only [Setup.heeds, stage] at heeds
  cases event with
  | cancelRequested => exact requested_sound sound stepped
  | retries =>
      simp only [Setup.step, stage, Option.some.injEq] at stepped
      exact stepped ▸ Pending.counts held batches
  | fails | timesOut =>
      simp only [Setup.step, stage, Option.some.injEq] at stepped
      exact stepped ▸ Pending.concludes held batches ((Bool.not_eq_true' _).mp heeds)
  | interrupted =>
      simp only [Setup.step, stage, Option.some.injEq] at stepped
      exact stepped ▸ Pending.closed held batches ((Bool.not_eq_true' _).mp heeds)
  | _ => simp only [Setup.step, stage, reduceCtorEq] at stepped

theorem concluding_sound {event : Event} {after : State} (stage : state.stage = .concluding)
    (sound : Sound setup state) (heeds : setup.heeds state event = true)
    (stepped : setup.step state event = some after) : Sound setup after := by
  obtain ⟨batches, held⟩ := id sound
  rw [stage] at held
  simp only [Setup.heeds, stage] at heeds
  cases event with
  | cancelRequested => exact requested_sound sound stepped
  | fails =>
      simp only [Setup.step, stage] at stepped
      split at stepped
      · rename_i completed
        cases stepped
        refine ⟨batches, ⟨held.1.ending, fun cancelled => ?_⟩, held.2⟩
        cases completed.symm.trans (held.1.status cancelled)
      · cases stepped
  | closes landed =>
      simp only [Setup.step, stage, Option.some.injEq] at stepped
      subst stepped
      refine ⟨batches, held.1.ending, fun cancelled => ?_⟩
      have status := held.1.status cancelled
      simp only [status, ne_eq, not_true_eq_false, decide_false, Bool.false_or] at heeds
      simp only [heeds, status, if_true]
  | _ => simp only [Setup.step, stage, reduceCtorEq] at stepped

theorem step_sound {event : Event} {after : State} (sound : Sound setup state)
    (heeds : setup.heeds state event = true) (stepped : setup.step state event = some after) :
    Sound setup after := by
  cases stage : state.stage with
  | preparing => exact preparing_sound stage sound stepped
  | calling await => exact calling_sound stage sound heeds stepped
  | waiting => exact waiting_sound stage sound heeds stepped
  | concluding => exact concluding_sound stage sound heeds stepped
  | closed => cases event <;> simp only [Setup.step, stage, reduceCtorEq] at stepped

/-- In a run whose steps all heed the event, a cancel before the last callback is honoured. -/
theorem heeded_runs_honour (setup : Setup) (events : List Event)
    (heeded : Meets setup.step (fun state event => setup.heeds state event = true) start events) :
    Always setup.step setup.Honours start events :=
  always_of_meets (Sound setup) (fun _ _ _ => step_sound) (fun _ => Sound.honours) start_sound
    heeded

def onePage (bulkRebuild : Bool) : Setup where
  bulkRebuild
  containmentTypes := []
  lineageTypes := ["FLOWS_TO"]
  batchSize := ⟨100, by decide⟩
  bulkCreateBatchSize := ⟨100, by decide⟩
  maxQuiesceEvents := 20
  job := ⟨"job", 3, 0, none⟩
  observedAt := "now"

def oneRow : List LineageEdge := [⟨"a", "b", "FLOWS_TO", none⟩]

def oneLabel : RebuildConfig := ⟨fun _ => some "Table", fun _ => none, none, .inSource⟩

/-- The callbacks lose the cancel, and the next phase finds it. -/
def duringCreate : List Event :=
  [.prepared, .counted, .reported, .probed false, .purged, .reported, .fetched oneRow,
    .expanded fun _ => [], .reported, .reported, .resolved oneLabel, .reported, .cancelRequested,
    .created, .reported, .reported, .closes true]

theorem heeded_runs_honour_create :
    Always (onePage true).step (onePage true).Honours start duringCreate :=
  heeded_runs_honour (onePage true) duringCreate (by decide +kernel)

def duringMerge : List Event :=
  [.prepared, .counted, .fetched oneRow, .expanded fun _ => [], .added [true] 100,
    .cancelRequested, .merged 100, .reported, .stamped, .closes true]

/-- A cancel during the MERGE of the only page is lost. -/
theorem cancel_during_last_merge :
    ¬ Always (onePage false).step (onePage false).Honours start duringMerge := by
  intro always
  have lost : (run (onePage false).step start duringMerge).map
      (fun state => (state.lastCallback, state.stored)) = some (true, .completed) := by
    decide +kernel
  obtain ⟨last, ran, lost⟩ := Option.map_eq_some_iff.mp lost
  obtain ⟨set, stored⟩ := Prod.mk.inj lost
  exact ((always_last always ran).status (.inl set)).1 stored

end Univiz.Aggregation.CancelSignals
