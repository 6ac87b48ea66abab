import Univiz.Jobs.Consumer

namespace Univiz.Jobs

open Univiz.Data

/-! When a stream announces every gap, and ends no earlier than its scope. -/

variable {π : Type}

/-- The requested events among those that are published first. -/
def StreamRequest.asked (request : StreamRequest π) (published : Nat) : List (JobEvent π) :=
  match request.fromSequence with
  | none => (request.history.take published).drop request.subscribedAt
  | some fromSequence => (request.history.take published).filter (JobEvent.since fromSequence)

def JobEvent.Precedes (earlier later : JobEvent π) : Prop :=
  earlier.jobId = later.jobId ∧ earlier.sequence + 1 = later.sequence

/-- The event has a predecessor that was asked for and is not among the frames before it. -/
def Misses (request : StreamRequest π) (published : Nat) (before : List (Frame π))
    (event : JobEvent π) : Prop :=
  (∃ earlier ∈ request.asked published, earlier.Precedes event) ∧
    ∀ earlier, .delivered earlier ∈ before → ¬ earlier.Precedes event

def Announced (before : List (Frame π)) (event : JobEvent π) : Prop :=
  ∃ resync, before.getLast? = some (.resync resync) ∧ resync.jobId = event.jobId

namespace EventStream

variable {reason : String → π} {request : StreamRequest π} {stream next : EventStream π}
  {event : JobEvent π} {index : Nat}

/-- Right after an event has been delivered, its gap is announced by the frame before it.  A
stream that has ended on its own has nothing left in its scope. -/
structure Gapless (request : StreamRequest π) (stream : EventStream π) : Prop where
  announced : ∀ before event, stream.frames = before ++ [.delivered event] →
    Misses request stream.cursor before event → Announced before event
  finished : stream.ended = some .terminal → match request.scope with
    | .job jobId => ∃ event, stream.frames.getLast? = some (.delivered event) ∧
        event.jobId = jobId ∧ event.type = .terminal
    | .tenant => request.history.length ≤ stream.cursor

/-- The consumer can compare a delivered event with an earlier and smaller one of its job where
its predecessor is missing, and the terminal event of a job is the last of the workspace. -/
def Comparable (request : StreamRequest π) (stream : EventStream π) : StreamEvent → Prop
  | .yields index => stream.ended = none → stream.cursor ≤ index →
      ∀ event ∈ request.history[index]?, request.scope.Covers event →
        (Misses request (index + 1) stream.frames event →
          (∃ prev ∈ stream.lastSeq event.jobId, prev < event.sequence) ∨
            Announced stream.frames event) ∧
        (event.type = .terminal → request.scope = .tenant → request.history.length ≤ index + 1)
  | .backfillNotSupported | .closes => True

theorem announced_concat {frames : List (Frame π)} {cursor : Nat} :
    (∀ before later, frames ++ [.delivered event] = before ++ [.delivered later] →
      Misses request cursor before later → Announced before later) ↔
      (Misses request cursor frames event → Announced frames event) := by
  refine ⟨fun announced => announced frames event rfl, ?_⟩
  intro announced before later same
  obtain ⟨rfl, last⟩ := List.append_inj' same rfl
  cases last
  exact announced

/-- Where the previous sequence is smaller and there is no gap, the predecessor is there. -/
theorem not_misses_of_prev (tracks : stream.Tracks) (gapless : ¬ stream.Gap event) {prev : Nat}
    (last : stream.lastSeq event.jobId = some prev) (smaller : prev < event.sequence) :
    ¬ Misses request (index + 1) stream.frames event := by
  intro ⟨_, missing⟩
  have near : ¬ prev + 1 < event.sequence := fun apart => gapless ⟨prev, last, apart⟩
  obtain ⟨earlier, member, same, number⟩ := tracks.delivered event.jobId prev last
  refine missing earlier member ⟨same, ?_⟩
  omega

theorem process_announced (tracks : stream.Tracks) :
    (∀ before later, (stream.process reason event index).frames = before ++ [.delivered later] →
      Misses request (index + 1) before later → Announced before later) ↔
      (Misses request (index + 1) stream.frames event →
        (∃ prev ∈ stream.lastSeq event.jobId, prev < event.sequence) ∨
          Announced stream.frames event) := by
  by_cases gap : stream.Gap event
  · have shape : (stream.process reason event index).frames =
        (stream.frames ++ [.resync (syntheticResyncForJob reason event)]) ++
          [.delivered event] := by
      rw [process, yielded_of_gap gap, List.append_assoc]
      rfl
    rw [shape, announced_concat]
    refine iff_of_true ?_ ?_
    · intro _
      exact ⟨syntheticResyncForJob reason event, List.getLast?_concat, rfl⟩
    · intro _
      obtain ⟨prev, last, apart⟩ := gap
      exact .inl ⟨prev, last, by omega⟩
  · have shape : (stream.process reason event index).frames =
        stream.frames ++ [.delivered event] := by
      rw [process, yielded_of_not_gap gap]
    rw [shape, announced_concat]
    refine forall_congr' fun missing => ⟨.inr, ?_⟩
    rintro (⟨prev, last, smaller⟩ | announced)
    · exact absurd missing (not_misses_of_prev tracks gap last smaller)
    · exact announced

theorem process_finished (covers : request.scope.Covers event) :
    ((stream.process reason event index).ended = some .terminal → match request.scope with
      | .job jobId => ∃ last, (stream.process reason event index).frames.getLast? =
          some (.delivered last) ∧ last.jobId = jobId ∧ last.type = .terminal
      | .tenant => request.history.length ≤ index + 1) ↔
      (event.type = .terminal → request.scope = .tenant →
        request.history.length ≤ index + 1) := by
  have ended : (stream.process reason event index).ended = some .terminal ↔
      event.type = .terminal := by
    simp only [process]
    split <;> simp_all
  have last : (stream.process reason event index).frames.getLast? = some (.delivered event) := by
    rw [process, yielded, ← List.append_assoc, List.getLast?_concat]
  rw [ended]
  refine forall_congr' fun terminal => ?_
  cases scope : request.scope with
  | job jobId =>
      rw [scope] at covers
      refine iff_of_true ⟨event, last, covers, terminal⟩ ?_
      intro other
      cases other
  | tenant => exact ⟨fun finished _ => finished, fun finished => finished rfl⟩

theorem process_gapless (tracks : stream.Tracks) (covers : request.scope.Covers event) :
    (stream.process reason event index).Gapless request ↔
      (Misses request (index + 1) stream.frames event →
        (∃ prev ∈ stream.lastSeq event.jobId, prev < event.sequence) ∨
          Announced stream.frames event) ∧
      (event.type = .terminal → request.scope = .tenant →
        request.history.length ≤ index + 1) := by
  rw [← process_announced tracks, ← process_finished covers]
  exact ⟨fun gapless => ⟨gapless.announced, gapless.finished⟩, fun both => ⟨both.1, both.2⟩⟩

theorem step_of_covers (active : stream.ended = none) (ahead : stream.cursor ≤ index)
    (found : request.history[index]? = some event) (covers : request.scope.Covers event) :
    step reason request stream (.yields index) = some (stream.process reason event index) := by
  rw [step, if_pos active, found, Option.bind_some, if_pos ⟨ahead, covers⟩]

theorem step_gapless_iff (tracks : stream.Tracks) (gapless : stream.Gapless request)
    (streamEvent : StreamEvent) :
    (∀ next, step reason request stream streamEvent = some next → next.Gapless request) ↔
      stream.Comparable request streamEvent := by
  cases streamEvent with
  | backfillNotSupported =>
      refine iff_of_true ?_ trivial
      intro next stepped
      have active := step_active stepped
      obtain rfl := step_restart stepped
      refine ⟨?_, ?_⟩
      · intro before event same
        cases (List.append_inj' same rfl).2
      · intro ended
        cases active.symm.trans ended
  | yields index =>
      refine ⟨?_, ?_⟩
      · intro kept active ahead event found covers
        exact (process_gapless tracks covers).mp
          (kept _ (step_of_covers active ahead found covers))
      · intro comparable next stepped
        have active := step_active stepped
        obtain ⟨event, found, ahead, covers, rfl⟩ := step_yields stepped
        exact (process_gapless tracks covers).mpr (comparable active ahead event found covers)
  | closes =>
      refine iff_of_true ?_ trivial
      intro next stepped
      obtain rfl := step_closes stepped
      exact ⟨gapless.announced, nofun⟩

theorem start_gapless : (start : EventStream π).Gapless request := by
  refine ⟨?_, nofun⟩
  intro before event same
  have length := congrArg List.length same
  rw [List.length_append] at length
  cases length

/-- A stream is gapless throughout exactly if all its steps are comparable. -/
theorem always_gapless_iff (reason : String → π) (request : StreamRequest π)
    (events : List StreamEvent) :
    Always (step reason request) (Gapless request) start events ↔
      Meets (step reason request) (Comparable request) start events :=
  always_iff_meets Tracks (fun _ _ _ tracks stepped => step_tracks tracks stepped)
    (fun _ streamEvent tracks gapless => step_gapless_iff tracks gapless streamEvent)
    start_tracks start_gapless

/-- The broker has dropped the first of two requested events. -/
def truncated : StreamRequest String :=
  ⟨[⟨.state, "agg_1", 1, "running"⟩, ⟨.progress, "agg_1", 2, "half"⟩], 2, .job "agg_1", some 1⟩

/-- One of two jobs ends before the other. -/
def multiplexed : StreamRequest String :=
  ⟨[⟨.terminal, "agg_1", 1, "completed"⟩, ⟨.state, "agg_2", 1, "running"⟩], 0, .tenant, none⟩

theorem incomplete_streams :
    (run (step id truncated) start [.yields 1]).map (fun last => (last.frames, last.cursor)) =
      some ([.delivered ⟨.progress, "agg_1", 2, "half"⟩], 2) ∧
    (run (step id multiplexed) start [.yields 0]).map (fun last => (last.ended, last.cursor)) =
      some (some .terminal, 1) := by
  decide +kernel

theorem not_gapless : ¬ ∃ case ∈ [(truncated, 1), (multiplexed, 0)], ∀ last,
    run (step id case.1) start [.yields case.2] = some last → last.Gapless case.1 := by
  intro gapless
  obtain ⟨case, member, always⟩ := gapless
  simp only [List.mem_cons, List.not_mem_nil, or_false] at member
  rcases member with rfl | rfl
  · obtain ⟨last, ran, shape⟩ := Option.map_eq_some_iff.mp incomplete_streams.1
    simp only [Prod.mk.injEq] at shape
    have announced := (always last ran).announced [] _ shape.1
    rw [shape.2] at announced
    obtain ⟨resync, found, -⟩ := announced ⟨⟨_, List.mem_cons_self, rfl, rfl⟩,
      fun _ absent => by cases absent⟩
    cases found
  · obtain ⟨last, ran, shape⟩ := Option.map_eq_some_iff.mp incomplete_streams.2
    simp only [Prod.mk.injEq] at shape
    have finished : multiplexed.history.length ≤ last.cursor :=
      (always last ran).finished shape.1
    rw [shape.2] at finished
    exact absurd finished (by decide)

end EventStream

end Univiz.Jobs
