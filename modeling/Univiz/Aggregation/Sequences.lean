import Univiz.Aggregation.Worker

namespace Univiz.Aggregation

open Univiz.Data Univiz.Jobs

/-! The sequences of the events that the workers of one job publish.

The emitter counts every event and the row counts the checkpoints, so the committed
`last_sequence` falls behind with the first event between two of them. -/

namespace Worker

/-- No two events have the same sequence, and a later worker has the larger ones. -/
structure Sequenced (worker : Worker) : Prop where
  distinct : (worker.published.map fun sent => sent.event.sequence).Nodup
  ordered : ∀ first ∈ worker.published, ∀ second ∈ worker.published,
    first.incarnation < second.incarnation → first.event.sequence < second.event.sequence

/-- A worker starts only where the committed `last_sequence` has caught up with what
has been published, and no terminal event is published after the first of a worker. -/
def CaughtUp (jobId : String) (worker : Worker) : Event → Prop
  | .run _ => ∀ sent ∈ worker.published,
      sent.event.sequence ≤ worker.committed.row.lastSequence
  | .terminal accepted => accepted = true → (worker.emitter.sequences jobId).isSome = true
  | .progress _ | .checkpoint _ | .save _ | .conclude _ _ | .finish _ | .crash => True

instance decidableCaughtUp (jobId : String) (worker : Worker) :
    (event : Event) → Decidable (worker.CaughtUp jobId event)
  | .run _ => inferInstanceAs (Decidable (∀ sent ∈ worker.published,
      sent.event.sequence ≤ worker.committed.row.lastSequence))
  | .terminal accepted => inferInstanceAs (Decidable
      (accepted = true → (worker.emitter.sequences jobId).isSome = true))
  | .progress _ | .checkpoint _ | .save _ | .conclude _ _ | .finish _ | .crash => isTrue trivial

/-- The sequences grow, and the counter of a worker is at the last of them. -/
structure Numbered (jobId : String) (worker : Worker) : Prop where
  increasing : worker.published.Pairwise fun first second =>
    first.event.sequence < second.event.sequence ∧ first.incarnation ≤ second.incarnation
  past : ∀ sent ∈ worker.published, sent.incarnation ≤ worker.incarnation
  counted : ∀ session, worker.session = some session →
    ∀ last, worker.emitter.sequences jobId = some last →
      ∀ sent ∈ worker.published, sent.event.sequence ≤ last
  seeded : ∀ session, worker.session = some session → session.phase = .running →
    (worker.emitter.sequences jobId).isSome = true

variable {jobId : String} {worker next : Worker} {session : WorkerSession}

theorem start_numbered : start.Numbered jobId where
  increasing := .nil
  past _ member := nomatch member
  counted _ alive := nomatch alive
  seeded _ alive := nomatch alive

theorem Numbered.sequenced (numbered : worker.Numbered jobId) : worker.Sequenced where
  distinct := by
    rw [List.Nodup, List.pairwise_map]
    exact numbered.increasing.imp fun later => Nat.ne_of_lt later.1
  ordered := by
    apply List.Pairwise.forall_of_forall_of_flip
    · intro sent _ earlier
      exact absurd earlier (Nat.lt_irrefl _)
    · exact numbered.increasing.imp fun later _ => later.1
    · exact numbered.increasing.imp fun later back => absurd back (Nat.not_lt_of_le later.2)

theorem Numbered.resume {committed : Committed} {after : Option WorkerSession}
    (numbered : worker.Numbered jobId)
    (counted : ∀ session, after = some session → worker.session.isSome = true)
    (seeded : ∀ session, after = some session → session.phase = .running →
      (worker.emitter.sequences jobId).isSome = true) :
    { worker with committed := committed, session := after }.Numbered jobId where
  increasing := numbered.increasing
  past := numbered.past
  counted session alive := by
    obtain ⟨before, alive'⟩ := Option.isSome_iff_exists.mp (counted session alive)
    exact numbered.counted before alive'
  seeded := seeded

theorem Numbered.emitted {sent : JobEmitter × JobEvent (Option JobStatus)} {accepted : Bool}
    (numbered : worker.Numbered jobId)
    (above : accepted = true → ∀ before ∈ worker.published,
      before.event.sequence < sent.2.sequence)
    (counted : ∀ last, sent.1.sequences jobId = some last → sent.2.sequence ≤ last ∧
      ∀ before ∈ worker.published, before.event.sequence ≤ last)
    (seeded : ∀ session, worker.session = some session → session.phase = .running →
      (sent.1.sequences jobId).isSome = true) :
    (worker.emitted sent accepted).Numbered jobId := by
  cases accepted with
  | false =>
      exact {
        increasing := numbered.increasing
        past := numbered.past
        counted := fun _ _ last counter => (counted last counter).2
        seeded := seeded }
  | true =>
      have last_of_all : ∀ before ∈ worker.published,
          before.event.sequence < sent.2.sequence ∧ before.incarnation ≤ worker.incarnation :=
        fun before member => ⟨above rfl before member, numbered.past before member⟩
      constructor
      · refine List.pairwise_append.mpr ⟨numbered.increasing, List.pairwise_singleton _ _, ?_⟩
        intro before member newest fresh
        rw [List.mem_singleton.mp fresh]
        exact last_of_all before member
      · intro before member
        rcases List.mem_append.mp member with old | fresh
        · exact numbered.past before old
        · rw [List.mem_singleton.mp fresh]
          exact Nat.le_refl _
      · intro session alive last counter before member
        rcases List.mem_append.mp member with old | fresh
        · exact (counted last counter).2 before old
        · rw [List.mem_singleton.mp fresh]
          exact (counted last counter).1
      · exact seeded

theorem Numbered.publish {type : JobEventType} {payload : Option JobStatus} {accepted : Bool}
    (numbered : worker.Numbered jobId) (alive : worker.session = some session)
    (counter : (worker.emitter.sequences jobId).isSome = true) :
    (worker.emitted (worker.emitter.publish jobId type payload) accepted).Numbered jobId := by
  obtain ⟨last, counter⟩ := Option.isSome_iff_exists.mp counter
  have below := numbered.counted session alive last counter
  have current : worker.emitter.currentSequence jobId = last := by
    simp [JobEmitter.currentSequence, counter]
  apply numbered.emitted
  · intro _ before member
    have within := below before member
    simp only [JobEmitter.sequence_publish, current]
    omega
  · intro last' counter'
    simp only [JobEmitter.sequences_publish, current, Option.some.injEq] at counter'
    simp only [JobEmitter.sequence_publish, current, ← counter']
    refine ⟨Nat.le_refl _, fun before member => ?_⟩
    have within := below before member
    omega
  · simp

theorem Numbered.terminal {ending : Server.Ending} {accepted : Bool}
    (numbered : worker.Numbered jobId) (alive : worker.session = some session)
    (announced : session.phase = .announced ending)
    (counter : accepted = true → (worker.emitter.sequences jobId).isSome = true) :
    (worker.emitted (worker.emitter.terminal jobId (some ending.status)) accepted).Numbered
      jobId := by
  apply numbered.emitted
  · intro published before member
    obtain ⟨last, counter⟩ := Option.isSome_iff_exists.mp (counter published)
    have within := numbered.counted session alive last counter before member
    simp only [JobEmitter.event_terminal, JobEmitter.currentSequence, counter, Option.getD_some]
    omega
  · simp
  · intro session' alive' running
    cases alive.symm.trans alive'
    cases announced.symm.trans running

theorem Numbered.started (numbered : worker.Numbered jobId)
    (caughtUp : ∀ sent ∈ worker.published,
      sent.event.sequence ≤ worker.committed.row.lastSequence) :
    (worker.started jobId).Numbered jobId where
  increasing := numbered.increasing
  past sent member := Nat.le_succ_of_le (numbered.past sent member)
  counted _ _ last counter sent member := by
    simp only [Worker.started, JobEmitter.sequences_seedSequence, Option.some.injEq] at counter
    rw [← counter]
    exact caughtUp sent member
  seeded _ _ _ := by simp [Worker.started]

theorem atWork_eq_some {after : WorkerSession → Worker} :
    worker.atWork after = some next ↔
      ∃ session, worker.session = some session ∧ session.phase = .running ∧
        next = after session := by
  unfold atWork
  cases worker.session with
  | none => simp
  | some session => cases phase : session.phase <;> simp [phase, eq_comm]

theorem Numbered.commits {outcome : CommitOutcome} (numbered : worker.Numbered jobId)
    (alive : worker.session.isSome = true)
    (seeded : session.phase = .running → (worker.emitter.sequences jobId).isSome = true) :
    (worker.commits session outcome).Numbered jobId := by
  cases outcome with
  | landed =>
      apply numbered.resume fun _ _ => alive
      intro after same running
      cases same
      exact seeded running
  | lost reloaded =>
      apply numbered.resume fun _ _ => alive
      intro after same running
      cases same
      exact seeded running

theorem step_numbered {event : Event} (numbered : worker.Numbered jobId)
    (caughtUp : worker.CaughtUp jobId event) (stepped : worker.step jobId event = some next) :
    next.Numbered jobId := by
  cases event with
  | run accepted =>
      simp only [step] at stepped
      split at stepped
      · cases stepped
      · cases stepped
        apply (numbered.started caughtUp).publish rfl
        simp [Worker.started]
  | progress accepted =>
      obtain ⟨session, alive, running, rfl⟩ := atWork_eq_some.mp stepped
      exact numbered.publish alive (numbered.seeded session alive running)
  | checkpoint outcome | save outcome =>
      obtain ⟨session, alive, running, rfl⟩ := atWork_eq_some.mp stepped
      apply numbered.commits (Option.isSome_of_eq_some alive)
      exact fun _ => numbered.seeded session alive running
  | conclude ending logged =>
      obtain ⟨session, alive, continued⟩ := Option.bind_eq_some_iff.mp stepped
      have concluded : (worker.concluded jobId session ending logged).Numbered jobId :=
        numbered.resume (fun _ _ => Option.isSome_of_eq_some alive) (fun _ same running => by
          cases same
          cases running)
      split at continued
      · cases continued
        exact concluded
      · cases continued
        exact concluded
      · cases continued
        exact concluded
      · cases continued
  | terminal accepted =>
      obtain ⟨session, alive, continued⟩ := Option.bind_eq_some_iff.mp stepped
      split at continued
      · rename_i ending concluding
        cases continued
        have announced : { worker with
            session := some { session with phase := .announced ending } }.Numbered jobId :=
          numbered.resume (fun _ _ => Option.isSome_of_eq_some alive) (fun _ same running => by
            cases same
            cases running)
        exact announced.terminal rfl rfl caughtUp
      · cases continued
      · cases continued
  | finish landed =>
      obtain ⟨session, -, rfl⟩ := Option.map_eq_some_iff.mp stepped
      exact numbered.resume (fun _ same => nomatch same) (fun _ same => nomatch same)
  | crash =>
      obtain ⟨session, -, rfl⟩ := Option.map_eq_some_iff.mp stepped
      exact numbered.resume (fun _ same => nomatch same) (fun _ same => nomatch same)

/-- Runs of a job whose workers all start caught up keep its events in sequence. -/
theorem workers_sequenced (jobId : String) (events : List Event) (last : Worker)
    (meets : Meets (step jobId) (CaughtUp jobId) start events)
    (ran : run (step jobId) start events = some last) : last.Sequenced := by
  have numbered : last.Numbered jobId :=
    run_invariant (Numbered jobId) (fun _ _ _ => step_numbered) start_numbered meets ran
  exact numbered.sequenced

/-- A worker crashes between the commit of its checkpoint and the event for it, and
the next one completes. -/
def crashedAtCommit : List Event :=
  [.run true, .checkpoint .landed, .crash, .run true, .progress true, .conclude .completed true,
    .terminal true, .finish true]

theorem workers_sequenced_crashedAtCommit :
    ∃ last, run (step "job") start crashedAtCommit = some last ∧
      (last.published.map fun sent => (sent.incarnation, sent.event.sequence)) =
        [(1, 1), (2, 2), (2, 3), (2, 4)] ∧ last.Sequenced := by
  obtain ⟨last, ran, sequences⟩ := Option.map_eq_some_iff.mp
    (show (run (step "job") start crashedAtCommit).map
      (fun last => last.published.map fun sent => (sent.incarnation, sent.event.sequence)) =
        some [(1, 1), (2, 2), (2, 3), (2, 4)] by decide)
  have sequenced : last.Sequenced :=
    workers_sequenced "job" crashedAtCommit last (by decide) ran
  exact ⟨last, ran, sequences, sequenced⟩

/-- A worker crashes after the event for its first checkpoint. -/
def crashedAfterProgress : List Event :=
  [.run true, .checkpoint .landed, .progress true, .crash, .run true]

/-- A job is cancelled before its first checkpoint, and resumed. -/
def cancelledAtOnce : List Event :=
  [.run true, .conclude .cancelled true, .terminal true, .finish true, .run true]

theorem repeated_sequences :
    ∀ events ∈ [crashedAfterProgress, cancelledAtOnce],
      (run (step "job") start events).map
        (fun last => decide (last.published.map fun sent => sent.event.sequence).Nodup) =
          some false := by
  decide

/-- Each of these runs publishes two events with one sequence. -/
theorem workers_not_sequenced :
    ¬ ∃ events ∈ [crashedAfterProgress, cancelledAtOnce],
      ∀ last, run (step "job") start events = some last → last.Sequenced := by
  intro ⟨events, member, always⟩
  obtain ⟨last, ran, repeated⟩ := Option.map_eq_some_iff.mp (repeated_sequences events member)
  exact of_decide_eq_false repeated (always last ran).distinct

end Worker

end Univiz.Aggregation
