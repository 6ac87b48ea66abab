import Univiz.Aggregation.Sequences

namespace Univiz.Aggregation

open Univiz.Data Univiz.Jobs

/-! The terminal events of a worker, and what is committed when they are published.

Every branch for an ending sends its terminal event, and only then the `finally` block
commits the row and the audit row. -/

/-- The row has the status of the event, and the audit row is there. -/
def Publication.Durable (sent : Publication) : Prop :=
  ∀ status, sent.event.payload = some status →
    sent.committed.row.status = status ∧ ⟨sent.event.sequence, status⟩ ∈ sent.committed.log

namespace Worker

/-- Every terminal event came after the commit of its ending. -/
def Durable (worker : Worker) : Prop :=
  ∀ sent ∈ worker.published, sent.event.type = .terminal → sent.Durable

instance decidableDurable (worker : Worker) : Decidable worker.Durable :=
  inferInstanceAs (Decidable (∀ sent ∈ worker.published, sent.event.type = .terminal →
    ∀ status, sent.event.payload = some status →
      sent.committed.row.status = status ∧ ⟨sent.event.sequence, status⟩ ∈ sent.committed.log))

/-- While a worker lives its job is committed as running, and a terminal event has been
published only if the broker has accepted one. -/
structure Premature (past : List Event) (worker : Worker) : Prop where
  running : worker.session.isSome = true → worker.committed.row.status = .running
  copied : ∀ session, worker.session = some session → session.phase = .running →
    session.row.status = .running
  early : ∀ sent ∈ worker.published, sent.event.type = .terminal →
    sent.committed.row.status = .running ∧
      ∃ ending : Server.Ending, sent.event.payload = some ending.status
  accepted : (∃ sent ∈ worker.published, sent.event.type = .terminal) ↔ .terminal true ∈ past

variable {jobId : String} {worker next : Worker} {past : List Event} {event : Event}

theorem start_premature : start.Premature [] where
  running alive := nomatch alive
  copied _ alive := nomatch alive
  early _ member := nomatch member
  accepted := by simp [start]

theorem Premature.silent {after : Worker} (premature : worker.Premature past)
    (other : event ≠ .terminal true)
    (running : after.session.isSome = true → after.committed.row.status = .running)
    (copied : ∀ session, after.session = some session → session.phase = .running →
      session.row.status = .running)
    (origin : ∀ sent, sent.event.type = .terminal →
      (sent ∈ after.published ↔ sent ∈ worker.published)) :
    after.Premature (past ++ [event]) where
  running := running
  copied := copied
  early sent member terminal := premature.early sent ((origin sent terminal).mp member) terminal
  accepted := by
    have unsent : Event.terminal true ∈ past ++ [event] ↔ Event.terminal true ∈ past := by
      simp [other.symm]
    rw [unsent, ← premature.accepted]
    constructor
    · intro ⟨sent, member, terminal⟩
      exact ⟨sent, (origin sent terminal).mp member, terminal⟩
    · intro ⟨sent, member, terminal⟩
      exact ⟨sent, (origin sent terminal).mpr member, terminal⟩

theorem mem_emitted {sent : JobEmitter × JobEvent (Option JobStatus)} {accepted : Bool}
    {publication : Publication} (other : sent.2.type ≠ .terminal)
    (terminal : publication.event.type = .terminal) :
    publication ∈ (worker.emitted sent accepted).published ↔ publication ∈ worker.published := by
  cases accepted with
  | false => rfl
  | true =>
      constructor
      · intro member
        rcases List.mem_append.mp member with old | fresh
        · exact old
        · rw [List.mem_singleton.mp fresh] at terminal
          exact absurd terminal other
      · exact List.mem_append_left _

theorem ending_not_running (ending : Server.Ending) : ending.status ≠ .running := by
  cases ending <;> decide

theorem commits_running {session after : WorkerSession} {outcome : CommitOutcome}
    (running : worker.committed.row.status = .running) (copied : session.row.status = .running)
    (alive : (worker.commits session outcome).session = some after) :
    (worker.commits session outcome).committed.row.status = .running ∧
      after.row.status = .running := by
  cases outcome with
  | landed =>
      cases alive
      exact ⟨copied, copied⟩
  | lost reloaded =>
      cases alive
      cases reloaded with
      | true => exact ⟨running, running⟩
      | false => exact ⟨running, copied⟩

theorem Premature.commits {session : WorkerSession} {outcome : CommitOutcome}
    (premature : worker.Premature past) (other : event ≠ .terminal true)
    (alive : worker.session.isSome = true) (copied : session.row.status = .running) :
    (worker.commits session outcome).Premature (past ++ [event]) := by
  apply premature.silent other
  · intro alive'
    obtain ⟨after, alive'⟩ := Option.isSome_iff_exists.mp alive'
    exact (commits_running (premature.running alive) copied alive').1
  · intro after alive' _
    exact (commits_running (premature.running alive) copied alive').2
  · intro sent _
    cases outcome <;> rfl

theorem Premature.concluded {session : WorkerSession} {ending : Server.Ending} {logged : Bool}
    (premature : worker.Premature past) (other : event ≠ .terminal true)
    (alive : worker.session.isSome = true) :
    (worker.concluded jobId session ending logged).Premature (past ++ [event]) := by
  apply premature.silent other
  · intro _
    exact premature.running alive
  · intro after same running
    cases same
    cases running
  · intro sent _
    rfl

theorem Premature.terminal {session : WorkerSession} {ending : Server.Ending} {accepted : Bool}
    (premature : worker.Premature past) (alive : worker.session.isSome = true) :
    (emitted { worker with session := some { session with phase := .announced ending } }
      (worker.emitter.terminal jobId (some ending.status)) accepted).Premature
        (past ++ [.terminal accepted]) := by
  cases accepted with
  | false =>
      apply premature.silent (by simp)
      · intro _
        exact premature.running alive
      · intro after same running
        cases same
        cases running
      · intro sent _
        rfl
  | true =>
      constructor
      · intro _
        exact premature.running alive
      · intro after same running
        cases same
        cases running
      · intro sent member terminal
        rcases List.mem_append.mp member with old | fresh
        · exact premature.early sent old terminal
        · rw [List.mem_singleton.mp fresh]
          exact ⟨premature.running alive, ending, rfl⟩
      · constructor
        · intro _
          simp
        · intro _
          exact ⟨_, List.mem_append_right _ (List.mem_singleton_self _), rfl⟩

theorem step_premature (premature : worker.Premature past)
    (stepped : worker.step jobId event = some next) : next.Premature (past ++ [event]) := by
  cases event with
  | run accepted =>
      simp only [step] at stepped
      split at stepped
      · cases stepped
      · cases stepped
        apply premature.silent (by simp)
        · intro _
          rfl
        · intro session same _
          cases same
          rfl
        · intro sent terminal
          exact mem_emitted (by simp [JobEmitter.publish]) terminal
  | progress accepted =>
      obtain ⟨session, alive, running, rfl⟩ := atWork_eq_some.mp stepped
      apply premature.silent (by simp)
      · intro alive'
        exact premature.running alive'
      · exact premature.copied
      · intro sent terminal
        exact mem_emitted (by simp [JobEmitter.publish]) terminal
  | checkpoint outcome | save outcome =>
      obtain ⟨session, alive, running, rfl⟩ := atWork_eq_some.mp stepped
      have copied := premature.copied session alive running
      exact premature.commits (by simp) (Option.isSome_of_eq_some alive) copied
  | conclude ending logged =>
      obtain ⟨session, alive, continued⟩ := Option.bind_eq_some_iff.mp stepped
      have concluded : (worker.concluded jobId session ending logged).Premature
          (past ++ [.conclude ending logged]) :=
        premature.concluded (by simp) (Option.isSome_of_eq_some alive)
      split at continued
      · cases continued
        exact concluded
      · cases continued
        exact concluded
      · cases continued
        exact concluded
      · cases continued
  | terminal accepted =>
      obtain ⟨session, alive, continued⟩ := Option.bind_eq_some_iff.mp stepped
      split at continued
      · cases continued
        exact premature.terminal (Option.isSome_of_eq_some alive)
      · cases continued
      · cases continued
  | finish landed =>
      obtain ⟨session, -, rfl⟩ := Option.map_eq_some_iff.mp stepped
      apply premature.silent (by simp)
      · intro alive
        cases alive
      · intro _ same
        cases same
      · intro _ _
        exact Iff.rfl
  | crash =>
      obtain ⟨session, -, rfl⟩ := Option.map_eq_some_iff.mp stepped
      apply premature.silent (by simp)
      · intro alive
        cases alive
      · intro _ same
        cases same
      · intro _ _
        exact Iff.rfl

/-- What is published early is not durable. -/
theorem Premature.durable_iff (premature : worker.Premature past) :
    worker.Durable ↔ .terminal true ∉ past := by
  rw [← premature.accepted]
  constructor
  · intro durable ⟨sent, member, terminal⟩
    obtain ⟨running, ending, payload⟩ := premature.early sent member terminal
    have settled := (durable sent member terminal ending.status payload).1
    exact ending_not_running ending (settled.symm.trans running)
  · intro unsent sent member terminal
    exact absurd ⟨sent, member, terminal⟩ unsent

/-- The terminal events of a job are durable only if the broker accepts none of them. -/
theorem terminal_durable_iff (jobId : String) (events : List Event) (last : Worker)
    (ran : run (step jobId) start events = some last) :
    last.Durable ↔ .terminal true ∉ events := by
  have premature : last.Premature events :=
    run_history Premature (fun _ _ _ _ => step_premature) start_premature ran
  exact premature.durable_iff

/-- A worker completes, and the broker refuses its terminal event. -/
def completedUnheard : List Event :=
  [.run true, .checkpoint .landed, .progress true, .conclude .completed true, .terminal false,
    .finish true]

theorem terminal_durable_unheard :
    ∃ last, run (step "job") start completedUnheard = some last ∧
      last.committed = ⟨⟨.completed, 1⟩, [⟨3, .completed⟩]⟩ ∧ last.Durable := by
  obtain ⟨last, ran, committed⟩ := Option.map_eq_some_iff.mp
    (show (run (step "job") start completedUnheard).map Worker.committed =
      some ⟨⟨.completed, 1⟩, [⟨3, .completed⟩]⟩ by decide)
  have durable : last.Durable :=
    (terminal_durable_iff "job" completedUnheard last ran).mpr (by simp [completedUnheard])
  exact ⟨last, ran, committed, durable⟩

/-- A worker ends at once, with all its commits and events. -/
def endedAtOnce (ending : Server.Ending) : List Event :=
  [.run true, .conclude ending true, .terminal true, .finish true]

theorem announced_early :
    ∀ ending ∈ [Server.Ending.completed, .failed, .cancelled],
      (run (step "job") start (endedAtOnce ending)).map (fun last => decide last.Durable) =
        some false := by
  decide

/-- In no branch is the terminal event durable. -/
theorem terminal_not_durable :
    ¬ ∃ ending ∈ [Server.Ending.completed, .failed, .cancelled],
      ∀ last, run (step "job") start (endedAtOnce ending) = some last → last.Durable := by
  intro ⟨ending, member, always⟩
  obtain ⟨last, ran, early⟩ := Option.map_eq_some_iff.mp (announced_early ending member)
  exact of_decide_eq_false early (always last ran)

end Worker

end Univiz.Aggregation
