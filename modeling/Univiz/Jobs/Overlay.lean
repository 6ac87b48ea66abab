import Univiz.Data.Texts
import Univiz.Jobs.Consumer

namespace Univiz.Jobs

open Univiz.Data

/-! `useJob`: the overlay of the events of one job.  What `Number` makes of a text is a
parameter, so is the type of numbers. -/

inductive PayloadValue (ν : Type) where
  | number (value : ν)
  | string (value : String)
  | other
deriving DecidableEq, Repr

abbrev Payload (ν : Type) := String → Option (PayloadValue ν)

inductive SnapshotField where
  | status
  | processedEdges
  | totalEdges
  | createdEdges
  | progress
  | lastCursor
  | lastHeartbeatAt
deriving DecidableEq, Repr

abbrev Snapshot (ν : Type) := SnapshotField → Option (PayloadValue ν)

variable {ν : Type}

def coerceNumeric (number : String → Option ν) : PayloadValue ν → Option ν
  | .number value => some value
  | .string value => number value
  | .other => none

namespace SnapshotField

def key : SnapshotField → String
  | status => "status"
  | processedEdges => "processed_edges"
  | totalEdges => "total_edges"
  | createdEdges => "created_edges"
  | progress => "progress"
  | lastCursor => "last_cursor"
  | lastHeartbeatAt => "last_heartbeat_at"

def numeric : SnapshotField → Bool
  | processedEdges | totalEdges | createdEdges | progress => true
  | status | lastCursor | lastHeartbeatAt => false

def text : PayloadValue ν → Option (PayloadValue ν)
  | .string value => some (.string value)
  | .number _ | .other => none

def read (number : String → Option ν) (field : SnapshotField) (value : PayloadValue ν) :
    Option (PayloadValue ν) :=
  if field.numeric then (coerceNumeric number value).map .number else text value

end SnapshotField

namespace Snapshot

def empty : Snapshot ν := fun _ => none

def next (number : String → Option ν) (payload : Payload ν) : Snapshot ν :=
  fun field => (payload field.key).bind (field.read number)

/-- The fields of the second snapshot replace those of the first. -/
def overlay (prev next : Snapshot ν) : Snapshot ν := fun field => (next field).or (prev field)

end Snapshot

structure JobLiveOverlay (ν : Type) where
  connected : Bool
  needsResync : Bool
  terminal : Bool
  snapshot : Snapshot ν

def JobLiveOverlay.initial : JobLiveOverlay ν := ⟨false, false, false, .empty⟩

/-- What an accepted event does to the overlay. -/
def JobLiveOverlay.accept (number : String → Option ν) (prev : JobLiveOverlay ν)
    (event : JobEvent (Payload ν)) : JobLiveOverlay ν :=
  if event.type = .resync then { prev with needsResync := true }
  else {
    connected := true
    needsResync := prev.needsResync && event.type ≠ .state
    terminal := event.type = .terminal
    snapshot := prev.snapshot.overlay (.next number event.payload) }

/-- A resync has no place in the order of the events. -/
def Frame.Before {π : Type} : Frame π → Frame π → Prop
  | .delivered earlier, .delivered later => earlier.sequence < later.sequence
  | _, _ => True

instance {π : Type} : DecidableRel (@Frame.Before π)
  | .delivered earlier, .delivered later =>
      inferInstanceAs (Decidable (earlier.sequence < later.sequence))
  | .delivered _, .resync _ | .resync _, .delivered _ | .resync _, .resync _ => isTrue trivial

/-- A frame that has been received, and whether its event was accepted. -/
structure Receipt (ν : Type) where
  frame : Frame (Payload ν)
  accepted : Bool

def Receipt.event (receipt : Receipt ν) : JobEvent (Payload ν) := receipt.frame.event

/-- A response of the endpoint, and how many of its frames have been received. -/
structure Connection (ν : Type) where
  request : StreamRequest (Payload ν)
  stream : EventStream (Payload ν)
  received : Nat

structure JobHistory (ν : Type) where
  jobId : String
  events : List (JobEvent (Payload ν))
  sameJob : ∀ event ∈ events, event.jobId = jobId
  positive : ∀ event ∈ events, 0 < event.sequence
  increasing : events.Pairwise fun earlier later => earlier.sequence < later.sequence

/-- The log is there for the statements only. -/
structure UseJob (ν : Type) where
  state : JobLiveOverlay ν
  acceptedSeq : Int
  log : List (Receipt ν)
  connection : Option (Connection ν)

inductive UseJobEvent where
  | opens (subscribedAt : Nat)
  | streams (event : StreamEvent)
  | receives
  | drops
deriving DecidableEq, Repr

/-- How the endpoint reads the header `Last-Event-ID`. -/
def fromSeq : Option String → Option Int
  | none => none
  | some lastEventId => if lastEventId = "" then none else some ((Decimal.parse lastEventId).getD 0)

def reasonPayload (reason : String) : Payload ν := fun key =>
  if key = "reason" then some (.string reason) else none

namespace UseJob

variable (number : String → Option ν) (history : JobHistory ν) (useJob : UseJob ν)

def start : UseJob ν := ⟨.initial, -1, [], none⟩

/-- The browser sends the id of the last frame, which is its sequence. -/
def lastEventId : Option String :=
  useJob.log.getLast?.map fun receipt => Decimal.print receipt.event.sequence

def handleEvent (frame : Frame (Payload ν)) : UseJob ν :=
  if frame.event.sequence ≤ useJob.acceptedSeq then
    { useJob with log := useJob.log ++ [⟨frame, false⟩] }
  else
    { useJob with
      acceptedSeq := frame.event.sequence
      state := useJob.state.accept number frame.event
      log := useJob.log ++ [⟨frame, true⟩] }

/-- The connections together deliver each event at most once and in order. -/
def InOrder (frame : Frame (Payload ν)) : Prop :=
  ∀ receipt ∈ useJob.log, receipt.frame.Before frame

instance : DecidablePred useJob.InOrder := fun _ =>
  inferInstanceAs (Decidable (∀ receipt ∈ useJob.log, _))

def opened (subscribedAt : Nat) : UseJob ν :=
  { useJob with
    state := { useJob.state with connected := true }
    connection := some {
      request := ⟨history.events, subscribedAt, .job history.jobId, fromSeq useJob.lastEventId⟩
      stream := .start
      received := 0 } }

def connectedTo (connection : Connection ν) : UseJob ν :=
  { useJob with connection := some connection }

def dropped : UseJob ν :=
  { useJob with state := { useJob.state with connected := false }, connection := none }

/-- Frames that the server has sent may still be lost with their connection. -/
def step (useJob : UseJob ν) : UseJobEvent → Option (UseJob ν)
  | .opens subscribedAt =>
      if useJob.connection.isNone then some (useJob.opened history subscribedAt) else none
  | .streams event => useJob.connection.bind fun connection =>
      (EventStream.step reasonPayload connection.request connection.stream event).map fun next =>
        useJob.connectedTo { connection with stream := next }
  | .receives => useJob.connection.bind fun connection =>
      connection.stream.frames[connection.received]?.bind fun frame =>
        if useJob.InOrder frame then
          some ((useJob.connectedTo
            { connection with received := connection.received + 1 }).handleEvent number frame)
        else none
  | .drops => some useJob.dropped

end UseJob

end Univiz.Jobs
