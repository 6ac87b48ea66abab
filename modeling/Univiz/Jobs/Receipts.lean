import Univiz.Jobs.Overlay

namespace Univiz.Jobs

open Univiz.Data

/-! When the overlay of `useJob` is that of all events it is sent. -/

namespace UseJob

variable {ν : Type} {number : String → Option ν} {history : JobHistory ν}
  {useJob next : UseJob ν} {frame : Frame (Payload ν)} {receipt : Receipt ν}

/-- The payloads of the events in the log, laid over each other. -/
def snapshotOf (number : String → Option ν) (log : List (Receipt ν)) : Snapshot ν :=
  (log.filter fun receipt => receipt.event.type ≠ .resync).foldl
    (fun snapshot receipt => snapshot.overlay (.next number receipt.event.payload)) .empty

/-- A resync is in the log, and no event of type `state` has been accepted after it. -/
def awaitsResync (log : List (Receipt ν)) : Bool :=
  log.foldl (fun awaits receipt =>
    if receipt.event.type = .resync then true
    else if receipt.event.type = .state ∧ receipt.accepted = true then false
    else awaits) false

structure Follows (number : String → Option ν) (useJob : UseJob ν) : Prop where
  accepts : ∀ receipt ∈ useJob.log, receipt.event.type ≠ .resync → receipt.accepted = true
  snapshot : useJob.state.snapshot = snapshotOf number useJob.log
  terminal : (∃ receipt ∈ useJob.log, receipt.event.type = .terminal) →
    useJob.state.terminal = true
  needsResync : awaitsResync useJob.log = true → useJob.state.needsResync = true

/-- A resync comes before all other frames of its sequence and of larger ones, or while another
is still waited for.  An event comes after no resync of its sequence or a larger one, and
nothing else than a terminal event comes after a terminal one. -/
def Compatible (useJob : UseJob ν) (event : JobEvent (Payload ν)) : Prop :=
  if event.type = .resync then
    (∀ receipt ∈ useJob.log, receipt.event.sequence < event.sequence) ∨
      useJob.state.needsResync = true
  else
    (∀ receipt ∈ useJob.log, receipt.event.type = .resync →
      receipt.event.sequence < event.sequence) ∧
    ((∃ receipt ∈ useJob.log, receipt.event.type = .terminal) → event.type = .terminal)

def Unmixed (useJob : UseJob ν) : UseJobEvent → Prop
  | .receives => ∀ connection ∈ useJob.connection,
      ∀ frame ∈ connection.stream.frames[connection.received]?,
        useJob.InOrder frame → useJob.Compatible frame.event
  | .opens _ | .streams _ | .drops => True

def Synthetic : Frame (Payload ν) → Prop
  | .delivered _ => True
  | .resync event => event.type = .resync

/-- The last accepted sequence is the largest in the log. -/
structure Consistent (useJob : UseJob ν) : Prop where
  largest : ∀ receipt ∈ useJob.log, receipt.event.sequence ≤ useJob.acceptedSeq
  attained : useJob.acceptedSeq = -1 ∨
    ∃ receipt ∈ useJob.log, receipt.event.sequence = useJob.acceptedSeq
  logged : ∀ receipt ∈ useJob.log, Synthetic receipt.frame
  streamed : ∀ connection ∈ useJob.connection, ∀ frame ∈ connection.stream.frames, Synthetic frame

theorem not_le_acceptedSeq (consistent : useJob.Consistent) (sequence : Nat) :
    ¬ (sequence : Int) ≤ useJob.acceptedSeq ↔
      ∀ receipt ∈ useJob.log, receipt.event.sequence < sequence := by
  refine ⟨?_, ?_⟩
  · intro larger receipt member
    have bound := consistent.largest receipt member
    omega
  · intro smaller bound
    rcases consistent.attained with initial | ⟨receipt, member, last⟩
    · omega
    · have less := smaller receipt member
      omega

/-- The events before the frame are smaller, so only a resync can have a larger sequence. -/
theorem not_le_acceptedSeq_of_inOrder (consistent : useJob.Consistent)
    (inOrder : useJob.InOrder frame) (genuine : frame.event.type ≠ .resync)
    (synthetic : Synthetic frame) :
    ¬ (frame.event.sequence : Int) ≤ useJob.acceptedSeq ↔
      ∀ receipt ∈ useJob.log, receipt.event.type = .resync →
        receipt.event.sequence < frame.event.sequence := by
  rw [not_le_acceptedSeq consistent]
  refine ⟨fun smaller receipt member _ => smaller receipt member, ?_⟩
  intro smaller receipt member
  cases frame with
  | resync event => exact absurd synthetic genuine
  | delivered event =>
      have before := inOrder receipt member
      have tagged := consistent.logged receipt member
      obtain ⟨earlier, accepted⟩ := receipt
      cases earlier with
      | delivered earlier => exact before
      | resync earlier => exact smaller _ member tagged

section Log

variable {log : List (Receipt ν)}

theorem snapshotOf_concat (log : List (Receipt ν)) (receipt : Receipt ν) :
    snapshotOf number (log ++ [receipt]) =
      if receipt.event.type = .resync then snapshotOf number log
      else (snapshotOf number log).overlay (.next number receipt.event.payload) := by
  simp only [snapshotOf]
  rw [List.filter_append]
  split
  · rename_i resync
    simp [resync]
  · rename_i genuine
    simp [genuine]

theorem awaitsResync_concat (log : List (Receipt ν)) (receipt : Receipt ν) :
    awaitsResync (log ++ [receipt]) =
      if receipt.event.type = .resync then true
      else if receipt.event.type = .state ∧ receipt.accepted = true then false
      else awaitsResync log := by
  rw [awaitsResync, List.foldl_append]
  rfl

end Log

theorem handleEvent_consistent (consistent : useJob.Consistent) (synthetic : Synthetic frame) :
    (useJob.handleEvent number frame).Consistent := by
  have logged (accepted : Bool) : ∀ receipt ∈ useJob.log ++ [⟨frame, accepted⟩],
      Synthetic receipt.frame := by
    intro receipt member
    rcases List.mem_append.mp member with old | new
    · exact consistent.logged receipt old
    · cases List.mem_singleton.mp new
      exact synthetic
  simp only [handleEvent]
  split
  · rename_i behind
    refine ⟨?_, ?_, logged false, consistent.streamed⟩
    · intro receipt member
      rcases List.mem_append.mp member with old | new
      · exact consistent.largest receipt old
      · cases List.mem_singleton.mp new
        exact behind
    · refine consistent.attained.imp_right ?_
      intro ⟨receipt, member, last⟩
      exact ⟨receipt, List.mem_append_left _ member, last⟩
  · rename_i ahead
    refine ⟨?_, .inr ⟨_, List.mem_append_right _ List.mem_cons_self, rfl⟩, logged true,
      consistent.streamed⟩
    intro receipt member
    rcases List.mem_append.mp member with old | new
    · exact Int.le_of_lt (Int.lt_of_le_of_lt (consistent.largest receipt old) (Int.not_le.mp ahead))
    · cases List.mem_singleton.mp new
      exact Int.le_refl _

theorem handleEvent_resync_follows (consistent : useJob.Consistent)
    (follows : useJob.Follows number) (resync : frame.event.type = .resync) :
    (useJob.handleEvent number frame).Follows number ↔ useJob.Compatible frame.event := by
  have accepts (accepted : Bool) : ∀ receipt ∈ useJob.log ++ [⟨frame, accepted⟩],
      receipt.event.type ≠ .resync → receipt.accepted = true := by
    intro receipt member genuine
    rcases List.mem_append.mp member with old | new
    · exact follows.accepts receipt old genuine
    · cases List.mem_singleton.mp new
      exact absurd resync genuine
  have terminal (accepted : Bool) :
      (∃ receipt ∈ useJob.log ++ [⟨frame, accepted⟩], receipt.event.type = .terminal) →
        useJob.state.terminal = true := by
    intro ⟨receipt, member, ended⟩
    rcases List.mem_append.mp member with old | new
    · exact follows.terminal ⟨receipt, old, ended⟩
    · cases List.mem_singleton.mp new
      cases resync.symm.trans ended
  have snapshot (accepted : Bool) :
      useJob.state.snapshot = snapshotOf number (useJob.log ++ [⟨frame, accepted⟩]) := by
    rw [snapshotOf_concat]
    exact follows.snapshot.trans (if_pos resync).symm
  have awaits (accepted : Bool) : awaitsResync (useJob.log ++ [⟨frame, accepted⟩]) = true := by
    rw [awaitsResync_concat]
    exact if_pos resync
  rw [Compatible, if_pos resync, ← not_le_acceptedSeq consistent]
  simp only [handleEvent]
  split
  · rename_i behind
    refine ⟨fun later => .inr (later.needsResync (awaits false)), ?_⟩
    rintro (ahead | needed)
    · exact absurd behind ahead
    · exact ⟨accepts false, snapshot false, terminal false, fun _ => needed⟩
  · rename_i ahead
    refine iff_of_true ?_ (.inl ahead)
    have state : useJob.state.accept number frame.event =
        { useJob.state with needsResync := true } := by
      rw [JobLiveOverlay.accept, if_pos resync]
    rw [state]
    exact ⟨accepts true, snapshot true, terminal true, fun _ => rfl⟩

theorem handleEvent_event_follows (consistent : useJob.Consistent) (follows : useJob.Follows number)
    (inOrder : useJob.InOrder frame) (synthetic : Synthetic frame)
    (genuine : frame.event.type ≠ .resync) :
    (useJob.handleEvent number frame).Follows number ↔ useJob.Compatible frame.event := by
  rw [Compatible, if_neg genuine,
    ← not_le_acceptedSeq_of_inOrder consistent inOrder genuine synthetic]
  have last (accepted : Bool) :
      (⟨frame, accepted⟩ : Receipt ν) ∈ useJob.log ++ [⟨frame, accepted⟩] :=
    List.mem_append_right _ List.mem_cons_self
  simp only [handleEvent]
  split
  · rename_i behind
    refine ⟨?_, fun both => absurd behind both.1⟩
    intro later
    cases later.accepts ⟨frame, false⟩ (last false) genuine
  · rename_i ahead
    have state : useJob.state.accept number frame.event = {
        connected := true
        needsResync := useJob.state.needsResync && frame.event.type ≠ .state
        terminal := frame.event.type = .terminal
        snapshot := useJob.state.snapshot.overlay (.next number frame.event.payload) } := by
      rw [JobLiveOverlay.accept, if_neg genuine]
    rw [state]
    refine ⟨?_, ?_⟩
    · intro later
      refine ⟨ahead, ?_⟩
      intro ⟨receipt, member, ended⟩
      exact of_decide_eq_true (later.terminal ⟨receipt, List.mem_append_left _ member, ended⟩)
    · intro ⟨_, final⟩
      refine ⟨?_, ?_, ?_, ?_⟩
      · intro receipt member kind
        rcases List.mem_append.mp member with old | new
        · exact follows.accepts receipt old kind
        · cases List.mem_singleton.mp new
          rfl
      · rw [snapshotOf_concat, ← follows.snapshot]
        exact (if_neg genuine).symm
      · intro ⟨receipt, member, ended⟩
        rcases List.mem_append.mp member with old | new
        · exact decide_eq_true (final ⟨receipt, old, ended⟩)
        · cases List.mem_singleton.mp new
          exact decide_eq_true ended
      · intro awaits
        rw [awaitsResync_concat] at awaits
        change (if frame.event.type = .resync then true
          else if frame.event.type = .state ∧ true = true then false
          else awaitsResync useJob.log) = true at awaits
        rw [if_neg genuine] at awaits
        split at awaits
        · cases awaits
        · rename_i other
          have other : frame.event.type ≠ .state := fun same => other ⟨same, rfl⟩
          simp [follows.needsResync awaits, other]

theorem handleEvent_follows (consistent : useJob.Consistent) (follows : useJob.Follows number)
    (inOrder : useJob.InOrder frame) (synthetic : Synthetic frame) :
    (useJob.handleEvent number frame).Follows number ↔ useJob.Compatible frame.event := by
  by_cases resync : frame.event.type = .resync
  · exact handleEvent_resync_follows consistent follows resync
  · exact handleEvent_event_follows consistent follows inOrder synthetic resync

theorem step_synthetic {request : StreamRequest (Payload ν)}
    {stream later : EventStream (Payload ν)} {event : StreamEvent}
    (synthetic : ∀ frame ∈ stream.frames, Synthetic frame)
    (stepped : EventStream.step reasonPayload request stream event = some later) :
    ∀ frame ∈ later.frames, Synthetic frame := by
  cases event with
  | backfillNotSupported =>
      obtain rfl := EventStream.step_restart stepped
      intro frame member
      rcases List.mem_append.mp member with old | new
      · exact synthetic frame old
      · cases List.mem_singleton.mp new
        rfl
  | yields index =>
      obtain ⟨event, -, -, -, rfl⟩ := EventStream.step_yields stepped
      intro frame member
      rcases List.mem_append.mp member with old | new
      · exact synthetic frame old
      · rcases List.mem_append.mp new with announced | delivered
        · split at announced
          · cases List.mem_singleton.mp announced
            rfl
          · cases announced
        · cases List.mem_singleton.mp delivered
          trivial
  | closes =>
      obtain rfl := EventStream.step_closes stepped
      exact synthetic

theorem connectedTo_consistent (consistent : useJob.Consistent) {connection : Connection ν}
    (synthetic : ∀ frame ∈ connection.stream.frames, Synthetic frame) :
    (useJob.connectedTo connection).Consistent := by
  refine ⟨consistent.largest, consistent.attained, consistent.logged, ?_⟩
  intro other found
  cases found
  exact synthetic

/-- What a frame is to be received from. -/
theorem step_receives (stepped : step number history useJob .receives = some next) :
    ∃ connection frame, useJob.connection = some connection ∧
      connection.stream.frames[connection.received]? = some frame ∧ useJob.InOrder frame ∧
      next = (useJob.connectedTo
        { connection with received := connection.received + 1 }).handleEvent number frame := by
  obtain ⟨connection, found, stepped⟩ := Option.bind_eq_some_iff.mp stepped
  obtain ⟨frame, pending, stepped⟩ := Option.bind_eq_some_iff.mp stepped
  split at stepped
  · rename_i inOrder
    exact ⟨connection, frame, found, pending, inOrder, (Option.some.inj stepped).symm⟩
  · cases stepped

theorem step_streams {event : StreamEvent}
    (stepped : step number history useJob (.streams event) = some next) :
    ∃ connection later, useJob.connection = some connection ∧
      EventStream.step reasonPayload connection.request connection.stream event = some later ∧
      next = useJob.connectedTo { connection with stream := later } := by
  obtain ⟨connection, found, stepped⟩ := Option.bind_eq_some_iff.mp stepped
  obtain ⟨later, streamed, rfl⟩ := Option.map_eq_some_iff.mp stepped
  exact ⟨connection, later, found, streamed, rfl⟩

theorem step_opens {subscribedAt : Nat}
    (stepped : step number history useJob (.opens subscribedAt) = some next) :
    next = useJob.opened history subscribedAt := by
  simp only [step] at stepped
  split at stepped
  · exact (Option.some.inj stepped).symm
  · cases stepped

theorem step_consistent {event : UseJobEvent} (consistent : useJob.Consistent)
    (stepped : step number history useJob event = some next) : next.Consistent := by
  cases event with
  | opens subscribedAt =>
      obtain rfl := step_opens stepped
      refine ⟨consistent.largest, consistent.attained, consistent.logged, ?_⟩
      intro connection found
      cases found
      nofun
  | streams event =>
      obtain ⟨connection, later, found, streamed, rfl⟩ := step_streams stepped
      exact connectedTo_consistent consistent
        (step_synthetic (consistent.streamed connection found) streamed)
  | receives =>
      obtain ⟨connection, frame, found, pending, -, rfl⟩ := step_receives stepped
      have synthetic := consistent.streamed connection found
      exact handleEvent_consistent (connectedTo_consistent consistent synthetic)
        (synthetic frame (List.mem_of_getElem? pending))
  | drops =>
      cases stepped
      exact ⟨consistent.largest, consistent.attained, consistent.logged, nofun⟩

/-- Nothing that is said of the overlay depends on the connection. -/
theorem follows_congr (follows : useJob.Follows number) {other : UseJob ν}
    (log : other.log = useJob.log) (snapshot : other.state.snapshot = useJob.state.snapshot)
    (terminal : other.state.terminal = useJob.state.terminal)
    (needsResync : other.state.needsResync = useJob.state.needsResync) : other.Follows number := by
  refine ⟨?_, ?_, ?_, ?_⟩
  · rw [log]
    exact follows.accepts
  · rw [log, snapshot]
    exact follows.snapshot
  · rw [log, terminal]
    exact follows.terminal
  · rw [log, needsResync]
    exact follows.needsResync

theorem step_follows_iff (consistent : useJob.Consistent) (follows : useJob.Follows number)
    (event : UseJobEvent) :
    (∀ next, step number history useJob event = some next → next.Follows number) ↔
      useJob.Unmixed event := by
  cases event with
  | opens subscribedAt =>
      refine iff_of_true ?_ trivial
      intro next stepped
      obtain rfl := step_opens stepped
      exact follows_congr follows rfl rfl rfl rfl
  | streams event =>
      refine iff_of_true ?_ trivial
      intro next stepped
      obtain ⟨connection, later, -, -, rfl⟩ := step_streams stepped
      exact follows_congr follows rfl rfl rfl rfl
  | drops =>
      refine iff_of_true ?_ trivial
      intro next stepped
      cases stepped
      exact follows_congr follows rfl rfl rfl rfl
  | receives =>
      have received {connection : Connection ν} {frame : Frame (Payload ν)}
          (found : useJob.connection = some connection)
          (pending : connection.stream.frames[connection.received]? = some frame)
          (inOrder : useJob.InOrder frame) :
          ((useJob.connectedTo
            { connection with received := connection.received + 1 }).handleEvent number
              frame).Follows number ↔ useJob.Compatible frame.event := by
        have synthetic := consistent.streamed connection found
        exact handleEvent_follows (connectedTo_consistent consistent synthetic)
          (follows_congr follows rfl rfl rfl rfl) inOrder
          (synthetic frame (List.mem_of_getElem? pending))
      refine ⟨?_, ?_⟩
      · intro kept connection found frame pending inOrder
        refine (received found pending inOrder).mp (kept _ ?_)
        simp only [step, Option.mem_def.mp found, Option.mem_def.mp pending, Option.bind_some,
          if_pos inOrder]
      · intro compatible next stepped
        obtain ⟨connection, frame, found, pending, inOrder, rfl⟩ := step_receives stepped
        exact (received found pending inOrder).mpr
          (compatible connection found frame pending inOrder)

theorem start_consistent : (start : UseJob ν).Consistent := ⟨nofun, .inl rfl, nofun, nofun⟩

theorem start_follows : (start : UseJob ν).Follows number := ⟨nofun, rfl, nofun, nofun⟩

/-- The overlay follows the job throughout exactly if no frame is received out of line. -/
theorem always_follows_iff (number : String → Option ν) (history : JobHistory ν)
    (events : List UseJobEvent) :
    Always (step number history) (Follows number) start events ↔
      Meets (step number history) Unmixed start events :=
  always_iff_meets Consistent (fun _ _ _ consistent stepped => step_consistent consistent stepped)
    (fun _ event consistent follows => step_follows_iff consistent follows event)
    start_consistent start_follows

/-- The third event of the job is its last. -/
def shortJob : JobHistory Int where
  jobId := "agg_1"
  events := [⟨.state, "agg_1", 1, reasonPayload "running"⟩,
    ⟨.progress, "agg_1", 2, reasonPayload "half"⟩, ⟨.terminal, "agg_1", 3, reasonPayload "done"⟩]
  sameJob := by simp
  positive := by simp
  increasing := by simp

/-- The second event is dropped, so the resync and the terminal event carry one sequence. -/
def gapBeforeTerminal : List UseJobEvent :=
  [.opens 0, .streams (.yields 0), .receives, .streams (.yields 2), .receives, .receives]

/-- The backfill of a reconnect is refused. -/
def refusedReconnect : List UseJobEvent :=
  [.opens 0, .streams (.yields 0), .receives, .drops, .opens 3, .streams .backfillNotSupported,
    .receives]

theorem lagging_overlays :
    (run (step Decimal.parse shortJob) start gapBeforeTerminal).map (fun last =>
      (last.log.map fun receipt => decide (receipt.event.type = .terminal), last.state.terminal)) =
        some ([false, false, true], false) ∧
    (run (step Decimal.parse shortJob) start refusedReconnect).map (fun last =>
      (awaitsResync last.log, last.state.needsResync)) = some (true, false) := by
  decide +kernel

theorem not_follows : ¬ ∃ events ∈ [gapBeforeTerminal, refusedReconnect], ∀ last,
    run (step Decimal.parse shortJob) start events = some last → last.Follows Decimal.parse := by
  intro ⟨events, member, always⟩
  simp only [List.mem_cons, List.not_mem_nil, or_false] at member
  rcases member with rfl | rfl
  · obtain ⟨last, ran, shape⟩ := Option.map_eq_some_iff.mp lagging_overlays.1
    simp only [Prod.mk.injEq] at shape
    have ended : true ∈ last.log.map fun receipt => decide (receipt.event.type = .terminal) := by
      rw [shape.1]
      decide
    obtain ⟨receipt, member, terminal⟩ := List.mem_map.mp ended
    have seen := (always last ran).terminal ⟨receipt, member, of_decide_eq_true terminal⟩
    rw [shape.2] at seen
    cases seen
  · obtain ⟨last, ran, shape⟩ := Option.map_eq_some_iff.mp lagging_overlays.2
    simp only [Prod.mk.injEq] at shape
    have needed := (always last ran).needsResync shape.1
    rw [shape.2] at needed
    cases needed

end UseJob

end Univiz.Jobs
