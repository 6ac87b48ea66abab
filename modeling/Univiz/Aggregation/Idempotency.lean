import Mathlib.Data.List.Pairwise
import Univiz.Aggregation.Reservation

namespace Univiz.Aggregation

open Univiz.Data

/-! Calls of `trigger` that carry the same idempotency key.

A lookup that finds no job makes the call fail, and the one after a refused claim is not reached
with a key: that a key has one row is the work of the unique index. -/

namespace Server

/-- The event begins a call, in a session of its own. -/
def Event.opens : Event → Bool
  | .trigger _ | .claimPurgeJob _ _ _ | .call _ => true
  | .advance _ | .checkpoint _ _ | .finish _ _ | .fail _ => false

/-- The calls of a run, at the places of their sessions. -/
def calls (events : List Event) : List Event := events.filter Event.opens

/-- The job that the call has returned. -/
def answer (server : Server) (id : Nat) : Option String :=
  server.sessions[id]?.bind fun session =>
    match session.statement with
    | .returned jobId => jobId
    | _ => none

end Server

/-- The statement belongs to a call of `trigger`.  What it returns is a row with the
key of the call. -/
def Statement.Serves (table : JobTable) (trigger : Trigger) : Statement → Prop
  | .lookup served | .tryAdvisoryLock served | .peek served => served = trigger
  | .refused served | .resolveOntology served => served = trigger
  | .insert job => job = trigger.job
  | .returned jobId => ∃ row ∈ table.rows, some row.id = jobId ∧ row.indexed = trigger.job.indexed
  | .raised _ => True
  | .claimPurge _ | .read _ | .update _ _ _ | .commit _ _ _ | .working _ => False

theorem Statement.Serves.kept {table after : JobTable} {trigger : Trigger} {statement : Statement}
    (serves : statement.Serves table trigger) (kept : table.Kept after) :
    statement.Serves after trigger := by
  cases statement with
  | returned jobId =>
      obtain ⟨row, member, named, entry⟩ := serves
      obtain ⟨row', present, same⟩ := kept row member
      refine ⟨row', present, ?_, same.2.2.2.trans entry⟩
      rw [same.1]
      exact named
  | _ => exact serves

theorem Trigger.replay_spec {trigger : Trigger} {table : JobTable} {existing : AggregationJob}
    (replayed : trigger.replay table = some existing) :
    existing ∈ table.rows ∧ existing.indexed = trigger.job.indexed := by
  unfold Trigger.replay at replayed
  split at replayed
  · cases replayed
  · obtain ⟨found, -⟩ := Option.filter_eq_some_iff.mp replayed
    have member := List.mem_of_find?_eq_some found
    have matching := List.find?_some found
    simp only [Bool.and_eq_true, decide_eq_true_eq] at matching
    exact ⟨member, matching.1⟩

namespace JobTable

variable {table : JobTable}

theorem eq_of_indexed_eq {first second : AggregationJob} {entry : String × String}
    (member : first ∈ table.rows) (present : second ∈ table.rows)
    (indexed : first.indexed = some entry) (indexed' : second.indexed = some entry) :
    first = second := by
  have distinct : table.rows.Pairwise fun left right =>
      ∀ entry, left.indexed = some entry → ∀ entry', right.indexed = some entry' → entry ≠ entry' :=
    List.pairwise_filterMap.mp table.index
  have symm : Std.Symm fun left right : AggregationJob =>
      ∀ entry, left.indexed = some entry → ∀ entry', right.indexed = some entry' → entry ≠ entry' :=
    ⟨fun _ _ apart entry indexed entry' indexed' => (apart entry' indexed' entry indexed).symm⟩
  by_contra different
  exact distinct.forall member present different entry indexed entry indexed' rfl

end JobTable

namespace Server

variable {key : String → Int} {server next : Server} {id : Nat} {session : Session}

/-- Every statement of a trigger serves its call. -/
theorem turn_serves {trigger : Trigger} {turn : Turn}
    (serves : session.statement.Serves server.table trigger)
    (taken : server.turn key id session = some turn) :
    turn.session.statement.Serves turn.table trigger := by
  unfold Server.turn at taken
  cases statement : session.statement with
  | lookup served | refused served =>
      simp only [statement] at taken
      rw [statement] at serves
      subst serves
      split at taken
      · rename_i existing replayed
        cases taken
        obtain ⟨member, indexed⟩ := Trigger.replay_spec replayed
        exact ⟨existing, member, rfl, indexed⟩
      · cases taken
        trivial
  | tryAdvisoryLock served | peek served =>
      simp only [statement] at taken
      rw [statement] at serves
      split at taken
      · cases taken
        exact serves
      · cases taken
        exact serves
  | resolveOntology served =>
      simp only [statement] at taken
      rw [statement] at serves
      split at taken
      · cases taken
        trivial
      · cases taken
        exact congrArg Trigger.job serves
  | insert job =>
      simp only [statement] at taken
      rw [statement] at serves
      split at taken
      · rename_i grown inserted
        cases taken
        refine ⟨job, (JobTable.mem_rows_insert inserted).mpr (.inr rfl), rfl, ?_⟩
        exact congrArg AggregationJob.indexed serves
      · cases taken
        trivial
  | returned _ | raised _ => simp [statement] at taken
  | _ =>
      rw [statement] at serves
      exact serves.elim

/-- The sessions are the calls of the run, and those of `trigger` serve them. -/
structure Serving (key : String → Int) (past : List Event) (server : Server) : Prop where
  orderly : server.Orderly key
  length : server.sessions.length = (calls past).length
  serves : ∀ (id : Nat) (session : Session) (trigger : Trigger),
    server.sessions[id]? = some session → (calls past)[id]? = some (.trigger trigger) →
      session.statement.Serves server.table trigger

/-- The server before any call of a run. -/
def opening (table : JobTable) : Server := ⟨table, [], false⟩

theorem opening_serving {table : JobTable} : (opening table).Serving key [] where
  orderly :=
    { advisory := fun _ _ _ _ _ _ found => nomatch found
      sound := fun _ member => nomatch member }
  length := rfl
  serves _ _ _ found := nomatch found

variable {past : List Event}

theorem calls_opened {event : Event} (opens : event.opens = true) :
    calls (past ++ [event]) = calls past ++ [event] := by
  simp [calls, opens]

theorem calls_kept {event : Event} (idle : event.opens = false) :
    calls (past ++ [event]) = calls past := by
  simp [calls, idle]

theorem Serving.opened {event : Event} {statement : Statement} (serving : server.Serving key past)
    (opens : event.opens = true) (sound : (Session.ended statement).Sound server.table)
    (begins : ∀ trigger, event = .trigger trigger → statement.Serves server.table trigger) :
    (server.opened statement).Serving key (past ++ [event]) where
  orderly := serving.orderly.opened sound
  length := by
    rw [calls_opened opens, Server.opened, List.length_append, List.length_append, serving.length]
    rfl
  serves := by
    intro id session trigger found called
    rw [calls_opened opens] at called
    rcases Nat.lt_or_ge id (calls past).length with inside | outside
    · rw [List.getElem?_append_left inside] at called
      rw [Server.opened, List.getElem?_append_left (serving.length ▸ inside)] at found
      exact serving.serves id session trigger found called
    · rw [List.getElem?_append_right outside] at called
      rw [Server.opened, List.getElem?_append_right (serving.length ▸ outside)] at found
      rw [List.mem_singleton.mp (List.mem_of_getElem? found)]
      exact begins trigger (List.mem_singleton.mp (List.mem_of_getElem? called)).symm

theorem Serving.take {event : Event} {turn : Turn} (serving : server.Serving key past)
    (idle : event.opens = false) (found : server.sessions[id]? = some session)
    (spec : TurnSpec key server id session turn)
    (goesOn : ∀ trigger, session.statement.Serves server.table trigger →
      turn.session.statement.Serves turn.table trigger) :
    (server.take id turn).Serving key (past ++ [event]) where
  orderly := serving.orderly.take found spec
  length := by
    rw [calls_kept idle, Server.take, List.length_set]
    exact serving.length
  serves := by
    intro j other trigger found' called
    rw [calls_kept idle] at called
    rcases getElem?_set_cases found' with ⟨rfl, rfl⟩ | ⟨-, before⟩
    · exact goesOn trigger (serving.serves id session trigger found called)
    · exact (serving.serves j other trigger before called).kept spec.kept

theorem works_serves {write : Write} {goesOn : Bool} {trigger : Trigger}
    (found : server.sessions[id]? = some session)
    (serves : session.statement.Serves server.table trigger) :
    server.works id write goesOn = none := by
  rw [works, found, Option.bind_some]
  cases statement : session.statement with
  | working job =>
      rw [statement] at serves
      exact serves.elim
  | _ => rfl

theorem step_serving {event : Event} (serving : server.Serving key past)
    (stepped : step key server event = some next) : next.Serving key (past ++ [event]) := by
  cases event with
  | trigger trigger =>
      simp only [step] at stepped
      split at stepped
      · cases stepped
        have sound : (Session.ended (.tryAdvisoryLock trigger)).Sound server.table := rfl
        apply serving.opened rfl sound
        intro served same
        cases same
        rfl
      · cases stepped
        have sound : (Session.ended (.lookup trigger)).Sound server.table := rfl
        apply serving.opened rfl sound
        intro served same
        cases same
        rfl
  | claimPurgeJob dataSourceId jobId createdAt =>
      cases stepped
      have sound : (Session.ended
          (.claimPurge (purgeJob dataSourceId jobId createdAt))).Sound server.table := ⟨rfl, rfl⟩
      apply serving.opened rfl sound
      intro _ same
      cases same
  | call call =>
      cases stepped
      have sound : (Session.ended (.read call)).Sound server.table := rfl
      apply serving.opened rfl sound
      intro _ same
      cases same
  | advance id =>
      obtain ⟨session, found, continued⟩ := Option.bind_eq_some_iff.mp stepped
      obtain ⟨turn, taken, rfl⟩ := Option.map_eq_some_iff.mp continued
      have sound := serving.orderly.sound session (List.mem_of_getElem? found)
      exact serving.take rfl found (turn_spec sound taken) fun _ serves => turn_serves serves taken
  | checkpoint id retryCount =>
      obtain ⟨session, after, found, rfl, spec, -⟩ := works_cases serving.orderly rfl stepped
      apply serving.take rfl found spec
      intro trigger serves
      cases (works_serves found serves).symm.trans stepped
  | finish id ending =>
      have idle : Write.activates { status := some ending.status } = false := by
        cases ending <;> rfl
      obtain ⟨session, after, found, rfl, spec, -⟩ := works_cases serving.orderly idle stepped
      apply serving.take rfl found spec
      intro trigger serves
      cases (works_serves found serves).symm.trans stepped
  | fail id =>
      obtain ⟨session, found, continued⟩ := Option.bind_eq_some_iff.mp stepped
      split at continued
      · cases continued
      · cases continued
        exact serving.take rfl found (.ends rfl) fun _ _ => trivial

/-- What a call of `trigger` has returned is a row with its key. -/
theorem Serving.answer {trigger : Trigger} {jobId : String} (serving : server.Serving key past)
    (called : (calls past)[id]? = some (.trigger trigger))
    (answered : server.answer id = some jobId) :
    ∃ row ∈ server.table.rows, row.id = jobId ∧ row.indexed = trigger.job.indexed := by
  obtain ⟨session, found, returned⟩ := Option.bind_eq_some_iff.mp answered
  have serves := serving.serves id session trigger found called
  split at returned
  · rename_i answer statement
    subst returned
    rw [statement] at serves
    obtain ⟨row, member, named, indexed⟩ := serves
    exact ⟨row, member, Option.some.inj named, indexed⟩
  · cases returned

/-- After any run, whatever was in the table before it, a key has at most one row, and the calls
of `trigger` that carry it and succeed have returned the same job. -/
theorem trigger_idempotent (key : String → Int) (table : JobTable) (events : List Event)
    (last : Server) (ran : run (step key) (opening table) events = some last)
    (dataSourceId idempotencyKey : String) :
    (last.table.rows.filter fun job => job.dataSourceId = dataSourceId &&
      job.idempotencyKey = some idempotencyKey).length ≤ 1 ∧
    ∀ (i j : Nat) (first second : Trigger),
      (calls events)[i]? = some (.trigger first) → (calls events)[j]? = some (.trigger second) →
        first.dataSourceId = dataSourceId → first.idempotencyKey = some idempotencyKey →
        second.dataSourceId = dataSourceId → second.idempotencyKey = some idempotencyKey →
          ∀ jobId jobId', last.answer i = some jobId → last.answer j = some jobId' →
            jobId = jobId' := by
  have serving : last.Serving key events :=
    run_history (Serving key) (fun _ _ _ _ => step_serving) opening_serving ran
  have entry : ∀ job : AggregationJob, job.dataSourceId = dataSourceId →
      job.idempotencyKey = some idempotencyKey →
        job.indexed = some (dataSourceId, idempotencyKey) := by
    intro job source keyed
    simp [AggregationJob.indexed, source, keyed]
  constructor
  · apply JobTable.filter_length_le
    intro first member second present
    simp only [List.mem_filter, Bool.and_eq_true, decide_eq_true_eq] at member present
    have indexed := entry first member.2.1 member.2.2
    have indexed' := entry second present.2.1 present.2.2
    exact congrArg AggregationJob.id
      (JobTable.eq_of_indexed_eq member.1 present.1 indexed indexed')
  · intro i j first second called called' source keyed source' keyed' jobId jobId' answered answered'
    obtain ⟨row, member, named, indexed⟩ := serving.answer called answered
    obtain ⟨row', present, named', indexed'⟩ := serving.answer called' answered'
    have same : row = row' :=
      JobTable.eq_of_indexed_eq member present (indexed.trans (entry first.job source keyed))
        (indexed'.trans (entry second.job source' keyed'))
    rw [← named, ← named', same]

def keyedTrigger (jobId : String) : Trigger :=
  { plainTrigger "ds" jobId "graph" with idempotencyKey := some "key" }

def keyedTable : JobTable :=
  ⟨[(keyedTrigger "a").job], List.nodup_singleton _, List.nodup_singleton _⟩

/-- Two calls begin while a job with their key is pending; it completes between their lookups. -/
def triggeredTwice : List Event :=
  .trigger (keyedTrigger "b") :: .trigger (keyedTrigger "c") :: advances 0 1 ++
    called 2 (.run "a") ++ .finish 2 .completed :: advances 2 2 ++ advances 1 1

theorem triggeredTwice_idempotent :
    ∃ last, run (step lengthKey) (opening keyedTable) triggeredTwice = some last ∧
      last.answer 0 = some "a" ∧ last.answer 1 = some "a" ∧
      (last.table.rows.filter fun job => job.dataSourceId = "ds" &&
        job.idempotencyKey = some "key").length ≤ 1 ∧
      ∀ jobId jobId', last.answer 0 = some jobId → last.answer 1 = some jobId' →
        jobId = jobId' := by
  obtain ⟨last, ran, answers⟩ := Option.map_eq_some_iff.mp
    (show (run (step lengthKey) (opening keyedTable) triggeredTwice).map
      (fun last => (last.answer 0, last.answer 1)) = some (some "a", some "a") by decide)
  obtain ⟨first, second⟩ := Prod.mk.inj answers
  obtain ⟨single, same⟩ := trigger_idempotent lengthKey keyedTable triggeredTwice last ran "ds" "key"
  have agree := same 0 1 (keyedTrigger "b") (keyedTrigger "c") rfl rfl rfl rfl rfl rfl
  exact ⟨last, ran, first, second, single, agree⟩

/-- Without such a job a call has begun its transaction too early. -/
example : (run (step lengthKey) start (.trigger (keyedTrigger "a") :: advances 0 1)).bind
    (fun last => last.sessions[0]?.map Session.statement) = some (.raised begunError) := rfl

end Server

end Univiz.Aggregation
