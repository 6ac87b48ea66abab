import Univiz.Data.Transition
import Univiz.Jobs.Broker

namespace Univiz.Jobs

/-! `JobEventConsumer.stream`, over a broker that yields events in the order of their
publication and may drop any of them. -/

inductive BrokerScope where
  | job (jobId : String)
  | tenant
deriving DecidableEq, Repr

variable {π : Type}

def BrokerScope.Covers : BrokerScope → JobEvent π → Prop
  | .job jobId, event => event.jobId = jobId
  | .tenant, _ => True

instance (scope : BrokerScope) (event : JobEvent π) : Decidable (scope.Covers event) :=
  match scope with
  | .job jobId => inferInstanceAs (Decidable (event.jobId = jobId))
  | .tenant => isTrue trivial

/-- An event of the broker, or one that the consumer makes up. -/
inductive Frame (π : Type) where
  | delivered (event : JobEvent π)
  | resync (event : JobEvent π)
deriving DecidableEq, Repr

def Frame.event : Frame π → JobEvent π
  | .delivered event => event
  | .resync event => event

/-- All events that are ever published in the workspace, and a request for some of them. -/
structure StreamRequest (π : Type) where
  history : List (JobEvent π)
  subscribedAt : Nat
  scope : BrokerScope
  fromSequence : Option Int

inductive Ending where
  | closed
  | terminal
deriving DecidableEq, Repr

/-- `opening` is true until the broker has answered for the first time, and `cursor` is the
place in the history behind what it has yielded. -/
structure EventStream (π : Type) where
  opening : Bool
  cursor : Nat
  lastSeq : String → Option Nat
  frames : List (Frame π)
  ended : Option Ending

inductive StreamEvent where
  | backfillNotSupported
  | yields (index : Nat)
  | closes
deriving DecidableEq, Repr

namespace EventStream

variable (reason : String → π) (request : StreamRequest π) (stream : EventStream π)
  (event : JobEvent π)

/-- A resync without the job, or with the one of the scope. -/
def syntheticResync (scope : BrokerScope) : JobEvent π where
  type := .resync
  jobId := match scope with
    | .job jobId => jobId
    | .tenant => "<resync>"
  sequence := 0
  payload := reason "backfill_not_supported"

def syntheticResyncForJob : JobEvent π where
  type := .resync
  jobId := event.jobId
  sequence := event.sequence
  payload := reason "sequence_gap"

def start : EventStream π := ⟨true, 0, fun _ => none, [], none⟩

/-- Some sequences of the job are missing right before the event. -/
def Gap : Prop := ∃ prev ∈ stream.lastSeq event.jobId, prev + 1 < event.sequence

instance : Decidable (stream.Gap event) :=
  match found : stream.lastSeq event.jobId with
  | none => isFalse (by simp [Gap, found])
  | some prev => decidable_of_iff (prev + 1 < event.sequence) (by simp [Gap, found])

/-- The loop body for one event of the broker. -/
def yielded : List (Frame π) :=
  (if stream.Gap event then [.resync (syntheticResyncForJob reason event)] else []) ++
    [.delivered event]

def process (index : Nat) : EventStream π where
  opening := false
  cursor := index + 1
  lastSeq := Function.update stream.lastSeq event.jobId (some event.sequence)
  frames := stream.frames ++ stream.yielded reason event
  ended := if event.type = .terminal then some .terminal else none

def restart : EventStream π :=
  { stream with
    opening := false
    frames := stream.frames ++ [.resync (syntheticResync reason request.scope)] }

/-- A refused backfill is followed by the live tail, and only the first answer of the broker
can be a refusal. -/
def step (stream : EventStream π) (streamEvent : StreamEvent) : Option (EventStream π) :=
  if stream.ended = none then
    match streamEvent with
    | .backfillNotSupported =>
        if stream.opening = true ∧ request.fromSequence.isSome then
          some (stream.restart reason request)
        else none
    | .yields index => request.history[index]?.bind fun event =>
        if stream.cursor ≤ index ∧ request.scope.Covers event then
          some (stream.process reason event index)
        else none
    | .closes => some { stream with ended := some .closed }
  else none

variable {reason request stream event} {index : Nat} {next : EventStream π}

theorem step_active {streamEvent : StreamEvent}
    (stepped : step reason request stream streamEvent = some next) : stream.ended = none := by
  simp only [step] at stepped
  split at stepped
  · assumption
  · cases stepped

theorem step_restart (stepped : step reason request stream .backfillNotSupported = some next) :
    next = stream.restart reason request := by
  unfold step at stepped
  split at stepped
  · dsimp only at stepped
    split at stepped
    · exact (Option.some.inj stepped).symm
    · cases stepped
  · cases stepped

theorem step_yields (stepped : step reason request stream (.yields index) = some next) :
    ∃ event, request.history[index]? = some event ∧ stream.cursor ≤ index ∧
      request.scope.Covers event ∧ next = stream.process reason event index := by
  simp only [step] at stepped
  split at stepped
  · obtain ⟨event, found, passed⟩ := Option.bind_eq_some_iff.mp stepped
    split at passed
    · rename_i checked
      exact ⟨event, found, checked.1, checked.2, (Option.some.inj passed).symm⟩
    · cases passed
  · cases stepped

theorem step_closes (stepped : step reason request stream .closes = some next) :
    next = { stream with ended := some .closed } := by
  simp only [step] at stepped
  split at stepped
  · exact (Option.some.inj stepped).symm
  · cases stepped

theorem yielded_of_gap (gap : stream.Gap event) : stream.yielded reason event =
    [.resync (syntheticResyncForJob reason event), .delivered event] := by
  rw [yielded, if_pos gap]
  rfl

theorem yielded_of_not_gap (gapless : ¬ stream.Gap event) :
    stream.yielded reason event = [.delivered event] := by
  rw [yielded, if_neg gapless]
  rfl

/-- The sequence kept for a job is the one of an event that was delivered. -/
structure Tracks (stream : EventStream π) : Prop where
  delivered : ∀ jobId, ∀ prev ∈ stream.lastSeq jobId,
    ∃ event, .delivered event ∈ stream.frames ∧ event.jobId = jobId ∧ event.sequence = prev

theorem start_tracks : (start : EventStream π).Tracks := ⟨nofun⟩

theorem process_tracks (tracks : stream.Tracks) :
    (stream.process reason event index).Tracks := by
  refine ⟨?_⟩
  intro jobId prev last
  have last : Function.update stream.lastSeq event.jobId (some event.sequence) jobId = some prev :=
    last
  by_cases same : jobId = event.jobId
  · subst same
    rw [Function.update_self] at last
    cases last
    refine ⟨event, List.mem_append_right _ ?_, rfl, rfl⟩
    exact List.mem_append_right _ List.mem_cons_self
  · rw [Function.update_of_ne same] at last
    obtain ⟨earlier, member, found⟩ := tracks.delivered jobId prev last
    exact ⟨earlier, List.mem_append_left _ member, found⟩

theorem step_tracks {streamEvent : StreamEvent} (tracks : stream.Tracks)
    (stepped : step reason request stream streamEvent = some next) : next.Tracks := by
  cases streamEvent with
  | backfillNotSupported =>
      obtain rfl := step_restart stepped
      refine ⟨?_⟩
      intro jobId prev last
      obtain ⟨earlier, member, found⟩ := tracks.delivered jobId prev last
      exact ⟨earlier, List.mem_append_left _ member, found⟩
  | yields index =>
      obtain ⟨event, -, -, -, rfl⟩ := step_yields stepped
      exact process_tracks tracks
  | closes =>
      obtain rfl := step_closes stepped
      exact ⟨tracks.delivered⟩

end EventStream

end Univiz.Jobs
