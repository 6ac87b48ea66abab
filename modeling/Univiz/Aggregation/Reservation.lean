import Univiz.Aggregation.Sessions

namespace Univiz.Aggregation

open Univiz.Data

/-- The data source and the job that a session activates with its commit. -/
def Session.claim (session : Session) : Option (String × String) :=
  match session.statement with
  | .resolveOntology trigger => some (trigger.dataSourceId, trigger.jobId)
  | .insert job => some (job.dataSourceId, job.id)
  | .update job write _ | .commit job write _ =>
      if write.activates then some (job.dataSourceId, job.id) else none
  | _ => none

namespace Server

/-- Every data source has at most one active job, and `claim_exclusive` has not
returned `True` beside one. -/
structure Safe (server : Server) : Prop where
  single : ∀ dataSourceId, (server.table.active dataSourceId).length ≤ 1
  seen : server.overlooked = false

/-- No session is about to activate a job of the data source. -/
def Unclaimed (server : Server) (dataSourceId : String) (considered : Session → Bool) : Prop :=
  ∀ session ∈ server.sessions, considered session = true →
    ∀ claim, session.claim = some claim → claim.1 ≠ dataSourceId

/-- No other job of the data source is active or about to be. -/
def Quiet (server : Server) (dataSourceId jobId : String) : Prop :=
  (∀ job ∈ server.table.active dataSourceId, job.id = jobId) ∧
    ∀ session ∈ server.sessions, ∀ claim, session.claim = some claim →
      claim.1 = dataSourceId → claim.2 = jobId

/-- `claim_exclusive` meets no active row that is locked, and no call without the
advisory lock is about to activate a job.  `claim_purge_job` meets no such call,
and a job that is not active is activated only if no other one is. -/
def Clear (server : Server) (id : Nat) : Statement → Prop
  | .peek trigger => server.peekActive id trigger.dataSourceId = none →
      (∀ other ∈ server.table.active trigger.dataSourceId,
        server.lockedElsewhere id other.id = false) ∧
      server.Unclaimed trigger.dataSourceId fun session => session.advisory = none
  | .claimPurge job => server.table.active job.dataSourceId = [] →
      server.Unclaimed job.dataSourceId fun _ => true
  | .read call => ∀ job, server.table.find call.jobId = some job →
      ∀ write, (call.decision job).write = some write → write.activates = true →
        job.status.isActive = false → server.Quiet job.dataSourceId job.id
  | _ => True

def Allowed (server : Server) : Event → Prop
  | .advance id => ∀ session, server.sessions[id]? = some session →
      server.Clear id session.statement
  | _ => True

instance decidableClear (server : Server) (id : Nat) :
    (statement : Statement) → Decidable (server.Clear id statement)
  | .peek trigger => inferInstanceAs (Decidable
      (server.peekActive id trigger.dataSourceId = none →
        (∀ other ∈ server.table.active trigger.dataSourceId,
          server.lockedElsewhere id other.id = false) ∧
        ∀ session ∈ server.sessions, decide (session.advisory = none) = true →
          ∀ claim, session.claim = some claim → claim.1 ≠ trigger.dataSourceId))
  | .claimPurge job => inferInstanceAs (Decidable (server.table.active job.dataSourceId = [] →
      ∀ session ∈ server.sessions, true = true →
        ∀ claim, session.claim = some claim → claim.1 ≠ job.dataSourceId))
  | .read call => inferInstanceAs (Decidable (∀ job, server.table.find call.jobId = some job →
      ∀ write, (call.decision job).write = some write → write.activates = true →
        job.status.isActive = false →
          (∀ other ∈ server.table.active job.dataSourceId, other.id = job.id) ∧
            ∀ session ∈ server.sessions, ∀ claim, session.claim = some claim →
              claim.1 = job.dataSourceId → claim.2 = job.id))
  | .lookup _ | .tryAdvisoryLock _ | .refused _ | .resolveOntology _ => isTrue trivial
  | .insert _ | .update _ _ _ | .commit _ _ _ | .working _ => isTrue trivial
  | .returned _ | .raised _ => isTrue trivial

instance decidableAllowed (server : Server) : (event : Event) → Decidable (server.Allowed event)
  | .advance id => inferInstanceAs (Decidable (∀ session, server.sessions[id]? = some session →
      server.Clear id session.statement))
  | .trigger _ | .claimPurgeJob _ _ _ | .call _ => isTrue trivial
  | .checkpoint _ _ | .finish _ _ | .fail _ => isTrue trivial

def Holds (server : Server) (dataSourceId jobId : String) : Prop :=
  (∃ job ∈ server.table.active dataSourceId, job.id = jobId) ∨
    ∃ session ∈ server.sessions, session.claim = some (dataSourceId, jobId)

structure Exclusive (key : String → Int) (server : Server) : Prop where
  orderly : server.Orderly key
  single : Sole server.Holds
  seen : server.overlooked = false

end Server

namespace Session

variable {table : JobTable} {session : Session}

/-- What a session claims: the job of a trigger that resolves its ontology, or the one that it is
about to activate. -/
theorem claim_eq_some {claim : String × String} : session.claim = some claim ↔
    (∃ trigger, session.statement = .resolveOntology trigger ∧
      (trigger.dataSourceId, trigger.jobId) = claim) ∨
    ∃ job, session.activating = some job ∧ (job.dataSourceId, job.id) = claim := by
  rw [Session.claim, activating]
  cases session.statement with
  | update job write _ | commit job write _ => simp [Option.ite_none_right_eq_some]
  | _ => simp

theorem claim_of_activating {job : AggregationJob} (activates : session.activating = some job) :
    session.claim = some (job.dataSourceId, job.id) :=
  claim_eq_some.mpr (.inr ⟨job, activates, rfl⟩)

theorem Passive.claim (passive : session.Passive) : session.claim = none := by
  obtain ⟨idle, unresolved⟩ := passive
  apply Option.eq_none_iff_forall_ne_some.mpr
  intro claim claims
  obtain ⟨trigger, resolving, _⟩ | ⟨job, activates, _⟩ := claim_eq_some.mp claims
  · exact unresolved trigger resolving
  · cases idle.symm.trans activates

theorem Sound.advisory_eq {held : String} {claim : String × String} (sound : session.Sound table)
    (locked : session.advisory = some held) (claims : session.claim = some claim) :
    held = claim.1 := by
  simp only [Sound] at sound
  simp only [Session.claim] at claims
  cases statement : session.statement with
  | resolveOntology trigger =>
      simp only [statement] at sound claims
      rw [← Option.some.inj claims]
      exact Option.some.inj (locked.symm.trans sound)
  | insert job =>
      simp only [statement] at sound claims
      rw [← Option.some.inj claims]
      exact sound held locked
  | update job write works | commit job write works =>
      simp only [statement] at sound
      cases locked.symm.trans sound.1
  | _ => simp [statement] at claims

end Session

namespace Server

variable {key : String → Int} {server next : Server} {id : Nat} {session : Session}

theorem start_exclusive : start.Exclusive key where
  orderly := start_orderly
  single _ _ _ holds := by
    rcases holds with ⟨_, active, _⟩ | ⟨_, member, _⟩
    · cases active
    · cases member
  seen := rfl

theorem Quiet.eq {dataSourceId jobId other : String} (quiet : server.Quiet dataSourceId jobId)
    (holds : server.Holds dataSourceId other) : other = jobId := by
  rcases holds with ⟨job, active, rfl⟩ | ⟨session, member, claims⟩
  · exact quiet.1 job active
  · exact quiet.2 session member _ claims rfl

theorem peekActive_none {dataSourceId : String}
    (clear : ∀ other ∈ server.table.active dataSourceId, server.lockedElsewhere id other.id = false)
    (nothing : server.peekActive id dataSourceId = none) : server.table.active dataSourceId = [] := by
  apply List.eq_nil_iff_forall_not_mem.mpr
  intro other member
  have hidden := List.find?_eq_none.mp nothing other member
  simp [clear other member] at hidden

/-- The advisory lock keeps the other triggers of a data source away. -/
theorem Orderly.unclaimed {dataSourceId : String} {other : Session} {claim : String × String}
    (orderly : server.Orderly key) (found : server.sessions[id]? = some session)
    (locked : session.advisory = some dataSourceId) (free : session.claim = none)
    (clear : server.Unclaimed dataSourceId fun session => session.advisory = none)
    (member : other ∈ server.sessions) (claims : other.claim = some claim) :
    claim.1 ≠ dataSourceId := by
  intro same
  cases advisory : other.advisory with
  | none => exact clear other member (decide_eq_true advisory) claim claims same
  | some held =>
      have owned : held = claim.1 := (orderly.sound other member).advisory_eq advisory claims
      obtain ⟨j, found'⟩ := List.getElem?_of_mem member
      have here : j = id := by
        apply orderly.advisory j id other session held dataSourceId found' found advisory locked
        rw [owned, same]
      rw [here, found] at found'
      cases found'
      rw [free] at claims
      cases claims

/-- `claim_exclusive` has returned `True` where nobody holds the data source. -/
theorem Exclusive.unheld {trigger : Trigger} (exclusive : server.Exclusive key)
    (found : server.sessions[id]? = some session) (statement : session.statement = .peek trigger)
    (clear : server.Clear id session.statement)
    (nothing : server.peekActive id trigger.dataSourceId = none) :
    server.table.active trigger.dataSourceId = [] ∧
      ∀ other, ¬ server.Holds trigger.dataSourceId other := by
  have sound := exclusive.orderly.sound session (List.mem_of_getElem? found)
  rw [Session.Sound, statement] at sound
  rw [statement] at clear
  obtain ⟨unlocked, unclaimed⟩ := clear nothing
  have idle := peekActive_none unlocked nothing
  have free : session.claim = none := by rw [Session.claim, statement]
  refine ⟨idle, ?_⟩
  intro other holds
  rcases holds with ⟨row, active, -⟩ | ⟨session', member, claims⟩
  · rw [idle] at active
    cases active
  · exact exclusive.orderly.unclaimed found sound free unclaimed member claims rfl

theorem turn_claim {turn : Turn} {dataSourceId jobId : String} (exclusive : server.Exclusive key)
    (found : server.sessions[id]? = some session) (clear : server.Clear id session.statement)
    (taken : server.turn key id session = some turn)
    (claims : turn.session.claim = some (dataSourceId, jobId)) :
    session.claim = some (dataSourceId, jobId) ∨
      ∀ other, server.Holds dataSourceId other → other = jobId := by
  obtain ⟨trigger, resolving, ⟨⟩⟩ | ⟨job, activates, ⟨⟩⟩ := Session.claim_eq_some.mp claims
  · obtain ⟨statement, nothing⟩ := turn_resolving taken resolving
    have unheld := (exclusive.unheld found statement clear nothing).2
    exact .inr fun other holds => absurd holds (unheld other)
  · obtain before | ⟨trigger, statement, _, rfl⟩ | ⟨statement, nothing⟩ |
      ⟨call, write, works, statement, read, decided, writes⟩ := turn_activating taken activates
    · exact .inl (Session.claim_of_activating before)
    · left
      rw [Session.claim, statement]
      rfl
    · rw [statement] at clear
      have idle := List.head?_eq_none_iff.mp nothing
      right
      intro other holds
      rcases holds with ⟨row, active, -⟩ | ⟨session', member, claims⟩
      · rw [idle] at active
        cases active
      · exact absurd rfl (clear idle session' member rfl _ claims)
    · rw [statement] at clear
      right
      intro other holds
      cases active : job.status.isActive with
      | true =>
          have row := JobTable.mem_active.mpr ⟨(JobTable.find_spec read).1, rfl, active⟩
          exact exclusive.single _ other job.id holds (.inl ⟨job, row, rfl⟩)
      | false =>
          have decided' : (call.decision job).write = some write := by rw [decided]; rfl
          exact (clear job read write decided' writes active).eq holds

theorem turn_seen {turn : Turn} (exclusive : server.Exclusive key)
    (found : server.sessions[id]? = some session) (clear : server.Clear id session.statement)
    (taken : server.turn key id session = some turn) : turn.overlooks = false := by
  simp only [Server.turn] at taken
  cases statement : session.statement with
  | peek trigger =>
      simp only [statement] at taken
      split at taken
      · cases taken
        rfl
      · rename_i nothing
        cases taken
        have idle := (exclusive.unheld found statement clear nothing).1
        simp [idle]
  | read call =>
      simp only [statement] at taken
      split at taken
      · cases taken
        rfl
      · split at taken <;> cases taken <;> rfl
  | commit job write works =>
      simp only [statement] at taken
      cases taken
      rfl
  | working _ | returned _ | raised _ => simp [statement] at taken
  | _ =>
      simp only [statement] at taken
      split at taken <;> cases taken <;> rfl

theorem TurnSpec.holds {turn : Turn} {dataSourceId jobId : String}
    (spec : TurnSpec key server id session turn) (found : server.sessions[id]? = some session)
    (holds : (server.take id turn).Holds dataSourceId jobId) :
    server.Holds dataSourceId jobId ∨ turn.session.claim = some (dataSourceId, jobId) := by
  rcases holds with ⟨job, active, rfl⟩ | ⟨other, member, claims⟩
  · left
    obtain ⟨present, here, running⟩ := JobTable.mem_active.mp active
    obtain ⟨before, same, ⟨old, active⟩ | activates⟩ := spec.active job present running
    · have row := JobTable.mem_active.mpr ⟨old, same.2.1.trans here, active⟩
      exact .inl ⟨before, row, same.1⟩
    · have claims := Session.claim_of_activating activates
      rw [same.1, same.2.1, here] at claims
      exact .inr ⟨session, List.mem_of_getElem? found, claims⟩
  · rcases List.mem_or_eq_of_mem_set member with before | rfl
    · exact .inl (.inr ⟨other, before, claims⟩)
    · exact .inr claims

theorem Exclusive.take {turn : Turn} (exclusive : server.Exclusive key)
    (found : server.sessions[id]? = some session) (spec : TurnSpec key server id session turn)
    (alone : ∀ dataSourceId jobId, turn.session.claim = some (dataSourceId, jobId) →
      session.claim = some (dataSourceId, jobId) ∨
        ∀ other, server.Holds dataSourceId other → other = jobId)
    (seen : turn.overlooks = false) : (server.take id turn).Exclusive key where
  orderly := exclusive.orderly.take found spec
  single := by
    apply exclusive.single.next _ (fun _ _ holds => spec.holds found holds)
    · intro dataSourceId jobId other claims holds
      rcases alone dataSourceId jobId claims with before | free
      · have held : server.Holds dataSourceId jobId :=
          .inr ⟨session, List.mem_of_getElem? found, before⟩
        exact exclusive.single dataSourceId other jobId holds held
      · exact free other holds
    · intro dataSourceId first second claims claims'
      cases claims.symm.trans claims'
      rfl
  seen := by
    change (server.overlooked || turn.overlooks) = false
    rw [exclusive.seen, seen]
    rfl

theorem Exclusive.opened {statement : Statement} (exclusive : server.Exclusive key)
    (sound : (Session.ended statement).Sound server.table)
    (passive : (Session.ended statement).Passive) : (server.opened statement).Exclusive key where
  orderly := exclusive.orderly.opened sound
  single := by
    apply exclusive.single.mono
    intro dataSourceId jobId holds
    rcases holds with active | ⟨session, member, claims⟩
    · exact .inl active
    · rcases List.mem_append.mp member with old | fresh
      · exact .inr ⟨session, old, claims⟩
      · rw [List.mem_singleton.mp fresh, passive.claim] at claims
        cases claims
  seen := exclusive.seen

theorem step_exclusive {event : Event} (exclusive : server.Exclusive key)
    (allowed : server.Allowed event) (stepped : step key server event = some next) :
    next.Exclusive key := by
  rcases step_cases exclusive.orderly stepped with ⟨statement, rfl, sound, passive⟩ |
    ⟨id, session, turn, found, rfl, spec, ⟨rfl, taken⟩ | ⟨passive, seen⟩⟩
  · exact exclusive.opened sound passive
  · have clear := allowed session found
    exact exclusive.take found spec (fun _ _ => turn_claim exclusive found clear taken)
      (turn_seen exclusive found clear taken)
  · apply exclusive.take found spec _ seen
    intro dataSourceId jobId claims
    rw [passive.claim] at claims
    cases claims

theorem Exclusive.safe (exclusive : server.Exclusive key) : server.Safe where
  single dataSourceId := by
    apply JobTable.filter_length_le
    intro first active second active'
    exact exclusive.single dataSourceId first.id second.id (.inl ⟨first, active, rfl⟩)
      (.inl ⟨second, active', rfl⟩)
  seen := exclusive.seen

/-- Runs from an empty table whose events are all allowed keep the table safe. -/
theorem reservations_safe (key : String → Int) (events : List Event) (last : Server)
    (meets : Meets (step key) Allowed start events) (ran : run (step key) start events = some last) :
    last.Safe := by
  have exclusive : last.Exclusive key :=
    run_invariant (Exclusive key) (fun _ _ _ => step_exclusive) start_exclusive meets ran
  exact exclusive.safe

def advances (id turns : Nat) : List Event := List.replicate turns (.advance id)

def plainTrigger (dataSourceId jobId graphName : String) : Trigger where
  dataSourceId := dataSourceId
  idempotencyKey := none
  maxRetries := none
  cutoff := 0
  jobId := jobId
  createdAt := 3600
  graphName := some graphName
  ontologyId := some "ontology"
  fingerprint := some "fingerprint"

def triggered (id : Nat) (jobId : String) : List Event :=
  .trigger (plainTrigger "ds" jobId "graph") :: advances id 4

def called (id : Nat) (call : Call) : List Event := .call call :: advances id 3

/-- A job fails, its successor completes, and the failed job is resumed. -/
def failedThenResumed : List Event :=
  triggered 0 "a" ++ called 1 (.run "a") ++ .finish 1 .failed :: advances 1 2 ++
    triggered 2 "b" ++ called 3 (.run "b") ++ .finish 3 .completed :: advances 3 2 ++
    called 4 (.resume "ds" "a" none)

/-- Any function of the data source serves as the key of its lock. -/
def lengthKey (dataSourceId : String) : Int := dataSourceId.length

theorem reservations_safe_resumed :
    ∃ last, run (step lengthKey) start failedThenResumed = some last ∧
      (last.table.active "ds").map AggregationJob.id = ["a"] ∧ last.Safe := by
  obtain ⟨last, ran, resumed⟩ := Option.map_eq_some_iff.mp
    (show (run (step lengthKey) start failedThenResumed).map
      (fun last => (last.table.active "ds").map AggregationJob.id) = some ["a"] by decide)
  have safe : last.Safe := reservations_safe lengthKey failedThenResumed last (by decide) ran
  exact ⟨last, ran, resumed, safe⟩

def resumedBeside : List Event :=
  triggered 0 "a" ++ called 1 (.run "a") ++ .finish 1 .failed :: advances 1 2 ++
    triggered 2 "b" ++ called 3 (.resume "ds" "a" none)

/-- A worker holds the row of its job while a trigger peeks at it. -/
def peekedWhileLocked : List Event :=
  triggered 0 "a" ++ called 1 (.run "a") ++ .checkpoint 1 none :: advances 1 1 ++ triggered 2 "b"

def purgedTwice : List Event :=
  .claimPurgeJob "ds" "a" 0 :: .claimPurgeJob "ds" "b" 0 :: advances 0 1 ++ advances 1 2 ++
    advances 0 1

/-- A job is cancelled before its worker starts, which it does beside the successor. -/
def cancelledThenRun : List Event :=
  triggered 0 "a" ++ called 1 (.cancel "ds" "a" false) ++ triggered 2 "b" ++ called 3 (.run "a")

theorem crowded_runs :
    ∀ events ∈ [resumedBeside, peekedWhileLocked, purgedTwice, cancelledThenRun],
      (run (step lengthKey) start events).map (fun last => (last.table.active "ds").length) =
        some 2 := by
  decide

/-- Each of these runs leaves two active jobs of one data source. -/
theorem reservations_not_safe :
    ¬ ∃ events ∈ [resumedBeside, peekedWhileLocked, purgedTwice, cancelledThenRun],
      ∀ last, run (step lengthKey) start events = some last → last.Safe := by
  intro ⟨events, member, always⟩
  obtain ⟨last, ran, two⟩ := Option.map_eq_some_iff.mp (crowded_runs events member)
  have single := (always last ran).single "ds"
  omega

end Server

end Univiz.Aggregation
