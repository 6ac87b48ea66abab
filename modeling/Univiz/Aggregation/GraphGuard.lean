import Univiz.Aggregation.Reservation

namespace Univiz.Aggregation

open Univiz.Data

/-! The graph-level guard of `trigger`, for data sources that share a graph. -/

def JobTable.activeOn (table : JobTable) (graphName : String) : List AggregationJob :=
  table.rows.filter fun job => job.graphName = some graphName && job.status.isActive

/-- The graph and the job that a session activates with its commit. -/
def Session.graphClaim (session : Session) : Option (String × String) :=
  session.activating.bind fun job => job.graphName.map fun graphName => (graphName, job.id)

namespace Server

def GraphSafe (server : Server) : Prop :=
  ∀ graphName, (server.table.activeOn graphName).length ≤ 1

/-- The guard of `trigger` meets no active job of its own data source, no active job
on a graph with an empty name, and no session that is about to activate a job on the
graph.  A job that is not active is activated only if no other one of its graph is
active or about to be. -/
def GraphClear (server : Server) : Statement → Prop
  | .resolveOntology trigger => server.graphConflict trigger = none →
      ∀ graphName, trigger.graphName = some graphName →
        (∀ job ∈ server.table.activeOn graphName,
          graphName ≠ "" ∧ job.dataSourceId ≠ trigger.dataSourceId) ∧
        ∀ session ∈ server.sessions, ∀ claim, session.graphClaim = some claim →
          claim.1 ≠ graphName
  | .read call => ∀ job, server.table.find call.jobId = some job →
      ∀ write, (call.decision job).write = some write → write.activates = true →
        job.status.isActive = false → ∀ graphName, job.graphName = some graphName →
          (∀ other ∈ server.table.activeOn graphName, other.id = job.id) ∧
          ∀ session ∈ server.sessions, ∀ claim, session.graphClaim = some claim →
            claim.1 = graphName → claim.2 = job.id
  | _ => True

def GraphAllowed (server : Server) : Event → Prop
  | .advance id => ∀ session, server.sessions[id]? = some session →
      server.GraphClear session.statement
  | _ => True

instance decidableGraphClear (server : Server) :
    (statement : Statement) → Decidable (server.GraphClear statement)
  | .resolveOntology trigger => inferInstanceAs (Decidable
      (server.graphConflict trigger = none →
        ∀ graphName, trigger.graphName = some graphName →
          (∀ job ∈ server.table.activeOn graphName,
            graphName ≠ "" ∧ job.dataSourceId ≠ trigger.dataSourceId) ∧
          ∀ session ∈ server.sessions, ∀ claim, session.graphClaim = some claim →
            claim.1 ≠ graphName))
  | .read call => inferInstanceAs (Decidable (∀ job, server.table.find call.jobId = some job →
      ∀ write, (call.decision job).write = some write → write.activates = true →
        job.status.isActive = false → ∀ graphName, job.graphName = some graphName →
          (∀ other ∈ server.table.activeOn graphName, other.id = job.id) ∧
          ∀ session ∈ server.sessions, ∀ claim, session.graphClaim = some claim →
            claim.1 = graphName → claim.2 = job.id))
  | .lookup _ | .tryAdvisoryLock _ | .peek _ | .refused _ | .claimPurge _ => isTrue trivial
  | .insert _ | .update _ _ _ | .commit _ _ _ | .working _ => isTrue trivial
  | .returned _ | .raised _ => isTrue trivial

instance decidableGraphAllowed (server : Server) :
    (event : Event) → Decidable (server.GraphAllowed event)
  | .advance id => inferInstanceAs (Decidable (∀ session, server.sessions[id]? = some session →
      server.GraphClear session.statement))
  | .trigger _ | .claimPurgeJob _ _ _ | .call _ => isTrue trivial
  | .checkpoint _ _ | .finish _ _ | .fail _ => isTrue trivial

def HoldsGraph (server : Server) (graphName jobId : String) : Prop :=
  (∃ job ∈ server.table.activeOn graphName, job.id = jobId) ∨
    ∃ session ∈ server.sessions, session.graphClaim = some (graphName, jobId)

structure GraphExclusive (key : String → Int) (server : Server) : Prop where
  orderly : server.Orderly key
  single : Sole server.HoldsGraph

variable {key : String → Int} {server next : Server} {id : Nat} {session : Session}

theorem start_graphExclusive : start.GraphExclusive key where
  orderly := start_orderly
  single _ _ _ holds := by
    rcases holds with ⟨_, active, _⟩ | ⟨_, member, _⟩
    · cases active
    · cases member

theorem mem_activeOn {table : JobTable} {job : AggregationJob} {graphName : String} :
    job ∈ table.activeOn graphName ↔
      job ∈ table.rows ∧ job.graphName = some graphName ∧ job.status.isActive = true := by
  simp [JobTable.activeOn]

theorem graphConflict_none {trigger : Trigger} {graphName : String} {job : AggregationJob}
    (guarded : server.graphConflict trigger = none) (graph : trigger.graphName = some graphName)
    (named : graphName ≠ "") (active : job ∈ server.table.activeOn graphName) :
    job.dataSourceId = trigger.dataSourceId := by
  obtain ⟨member, here, running⟩ := mem_activeOn.mp active
  simp only [graphConflict, graph, Option.getD_some, if_neg named] at guarded
  have passed := List.find?_eq_none.mp guarded job member
  simpa [here, running] using passed

theorem GraphClear.unheld {trigger : Trigger} {graphName other : String}
    (clear : server.GraphClear (.resolveOntology trigger))
    (guarded : server.graphConflict trigger = none) (graph : trigger.graphName = some graphName) :
    ¬ server.HoldsGraph graphName other := by
  intro holds
  obtain ⟨foreign, unclaimed⟩ := clear guarded graphName graph
  rcases holds with ⟨job, active, -⟩ | ⟨session, member, claims⟩
  · obtain ⟨named, elsewhere⟩ := foreign job active
    exact elsewhere (graphConflict_none guarded graph named active)
  · exact unclaimed session member _ claims rfl

theorem graphClaim_eq_some {graphName jobId : String} :
    session.graphClaim = some (graphName, jobId) ↔
      ∃ job, session.activating = some job ∧ job.graphName = some graphName ∧ job.id = jobId := by
  simp [Session.graphClaim, Option.bind_eq_some_iff]

theorem turn_graphClaim {turn : Turn} {graphName jobId : String}
    (exclusive : server.GraphExclusive key) (found : server.sessions[id]? = some session)
    (clear : server.GraphClear session.statement)
    (taken : server.turn key id session = some turn)
    (claims : turn.session.graphClaim = some (graphName, jobId)) :
    session.graphClaim = some (graphName, jobId) ∨
      ∀ other, server.HoldsGraph graphName other → other = jobId := by
  obtain ⟨job, activates, graph, named⟩ := graphClaim_eq_some.mp claims
  obtain before | ⟨trigger, statement, guarded, rfl⟩ | ⟨statement, _⟩ |
    ⟨call, write, works, statement, read, decided, writes⟩ := turn_activating taken activates
  · exact .inl (graphClaim_eq_some.mpr ⟨job, before, graph, named⟩)
  · rw [statement] at clear
    exact .inr fun other holds => absurd holds (clear.unheld guarded graph)
  · have sound := exclusive.orderly.sound session (List.mem_of_getElem? found)
    rw [Session.Sound, statement] at sound
    cases graph.symm.trans sound.2
  · rw [statement] at clear
    rw [← named]
    right
    intro other holds
    cases active : job.status.isActive with
    | true =>
        have member := mem_activeOn.mpr ⟨(JobTable.find_spec read).1, graph, active⟩
        exact exclusive.single _ other job.id holds (.inl ⟨job, member, rfl⟩)
    | false =>
        have decided' : (call.decision job).write = some write := by rw [decided]; rfl
        obtain ⟨alone, unclaimed⟩ := clear job read write decided' writes active _ graph
        rcases holds with ⟨row, member, rfl⟩ | ⟨session', member, claims'⟩
        · exact alone row member
        · exact unclaimed session' member _ claims' rfl

theorem TurnSpec.holdsGraph {turn : Turn} {graphName jobId : String}
    (spec : TurnSpec key server id session turn) (found : server.sessions[id]? = some session)
    (holds : (server.take id turn).HoldsGraph graphName jobId) :
    server.HoldsGraph graphName jobId ∨
      turn.session.graphClaim = some (graphName, jobId) := by
  rcases holds with ⟨job, active, rfl⟩ | ⟨other, member, claims⟩
  · left
    obtain ⟨present, here, running⟩ := mem_activeOn.mp active
    obtain ⟨before, same, ⟨old, active⟩ | activates⟩ := spec.active job present running
    · have row := mem_activeOn.mpr ⟨old, same.2.2.1.trans here, active⟩
      exact .inl ⟨before, row, same.1⟩
    · have claims := graphClaim_eq_some.mpr ⟨before, activates, same.2.2.1.trans here, same.1⟩
      exact .inr ⟨session, List.mem_of_getElem? found, claims⟩
  · rcases List.mem_or_eq_of_mem_set member with before | rfl
    · exact .inl (.inr ⟨other, before, claims⟩)
    · exact .inr claims

theorem GraphExclusive.take {turn : Turn} (exclusive : server.GraphExclusive key)
    (found : server.sessions[id]? = some session) (spec : TurnSpec key server id session turn)
    (alone : ∀ graphName jobId, turn.session.graphClaim = some (graphName, jobId) →
      session.graphClaim = some (graphName, jobId) ∨
        ∀ other, server.HoldsGraph graphName other → other = jobId) :
    (server.take id turn).GraphExclusive key where
  orderly := exclusive.orderly.take found spec
  single := by
    apply exclusive.single.next _ (fun _ _ holds => spec.holdsGraph found holds)
    · intro graphName jobId other claims holds
      rcases alone graphName jobId claims with before | free
      · have held : server.HoldsGraph graphName jobId :=
          .inr ⟨session, List.mem_of_getElem? found, before⟩
        exact exclusive.single graphName other jobId holds held
      · exact free other holds
    · intro graphName first second claims claims'
      cases claims.symm.trans claims'
      rfl

theorem GraphExclusive.opened {statement : Statement} (exclusive : server.GraphExclusive key)
    (sound : (Session.ended statement).Sound server.table)
    (passive : (Session.ended statement).Passive) :
    (server.opened statement).GraphExclusive key where
  orderly := exclusive.orderly.opened sound
  single := by
    apply exclusive.single.mono
    intro graphName jobId holds
    rcases holds with active | ⟨session, member, claims⟩
    · exact .inl active
    · rcases List.mem_append.mp member with old | fresh
      · exact .inr ⟨session, old, claims⟩
      · rw [List.mem_singleton.mp fresh, Session.graphClaim, passive.1] at claims
        cases claims

theorem step_graphExclusive {event : Event} (exclusive : server.GraphExclusive key)
    (allowed : server.GraphAllowed event) (stepped : step key server event = some next) :
    next.GraphExclusive key := by
  rcases step_cases exclusive.orderly stepped with ⟨statement, rfl, sound, passive⟩ |
    ⟨id, session, turn, found, rfl, spec, ⟨rfl, taken⟩ | ⟨passive, -⟩⟩
  · exact exclusive.opened sound passive
  · have clear := allowed session found
    exact exclusive.take found spec fun _ _ => turn_graphClaim exclusive found clear taken
  · apply exclusive.take found spec
    intro graphName jobId claims
    rw [Session.graphClaim, passive.1] at claims
    cases claims

theorem GraphExclusive.safe (exclusive : server.GraphExclusive key) : server.GraphSafe := by
  intro graphName
  apply JobTable.filter_length_le
  intro first active second active'
  exact exclusive.single graphName first.id second.id (.inl ⟨first, active, rfl⟩)
    (.inl ⟨second, active', rfl⟩)

/-- Runs from an empty table whose events are all allowed keep the graphs safe. -/
theorem graphGuard_safe (key : String → Int) (events : List Event) (last : Server)
    (meets : Meets (step key) GraphAllowed start events)
    (ran : run (step key) start events = some last) : last.GraphSafe := by
  have exclusive : last.GraphExclusive key :=
    run_invariant (GraphExclusive key) (fun _ _ _ => step_graphExclusive) start_graphExclusive
      meets ran
  exact exclusive.safe

/-- The job of one data source is cancelled before the other data source of its graph
is triggered. -/
def cancelledThenTriggered : List Event :=
  .trigger (plainTrigger "ds1" "a" "graph") :: advances 0 4 ++
    called 1 (.cancel "ds1" "a" false) ++
    .trigger (plainTrigger "ds2" "b" "graph") :: advances 2 4

theorem graphGuard_safe_cancelled :
    ∃ last, run (step lengthKey) start cancelledThenTriggered = some last ∧
      (last.table.activeOn "graph").map AggregationJob.id = ["b"] ∧ last.GraphSafe := by
  obtain ⟨last, ran, active⟩ := Option.map_eq_some_iff.mp
    (show (run (step lengthKey) start cancelledThenTriggered).map
      (fun last => (last.table.activeOn "graph").map AggregationJob.id) = some ["b"] by decide)
  have safe : last.GraphSafe :=
    graphGuard_safe lengthKey cancelledThenTriggered last (by decide) ran
  exact ⟨last, ran, active, safe⟩

def triggeredAtOnce : List Event :=
  .trigger (plainTrigger "ds1" "a" "graph") :: .trigger (plainTrigger "ds02" "b" "graph") ::
    advances 0 3 ++ advances 1 3 ++ advances 0 1 ++ advances 1 1

/-- A cancelled job is resumed beside the job of another data source. -/
def resumedBesideOther : List Event := cancelledThenTriggered ++ called 3 (.resume "ds1" "a" none)

theorem crowded_graphs :
    ∀ events ∈ [triggeredAtOnce, resumedBesideOther],
      (run (step lengthKey) start events).map
        (fun last => (last.table.activeOn "graph").length) = some 2 := by
  decide

/-- Each of these runs leaves two active jobs on one graph. -/
theorem graphGuard_not_safe :
    ¬ ∃ events ∈ [triggeredAtOnce, resumedBesideOther],
      ∀ last, run (step lengthKey) start events = some last → last.GraphSafe := by
  intro ⟨events, member, always⟩
  obtain ⟨last, ran, two⟩ := Option.map_eq_some_iff.mp (crowded_graphs events member)
  have single := always last ran "graph"
  omega

end Server

end Univiz.Aggregation
