import Univiz.TraceStore.LineageTrace

namespace Univiz.TraceStore

open Univiz.Data

/-! When the result of a lineage trace is that of the latest start. -/

variable {Content : Type}

/-- The response with the deltas of expand calls that were issued with its session id. -/
inductive Derived (calls : List (ExpandCall Content)) (response : TraceResultV2 Content) :
    TraceResultV2 Content → Prop where
  | response : Derived calls response response
  | expanded {result : TraceResultV2 Content} {call : ExpandCall Content}
      {data : TraceDeltaData Content} {content : Content} (derived : Derived calls response result)
      (member : call ∈ calls) (answered : call.outcome = .answered (data, content))
      (issued : response.traceMeta.traceSessionId = some call.request.traceSessionId) :
      Derived calls response
        (result.applied (call.request.delta data content) call.request.expandUrn)

variable {calls more : List (ExpandCall Content)} {response result : TraceResultV2 Content}

theorem Derived.mono (derived : Derived calls response result)
    (kept : ∀ call ∈ calls, ∀ answer, call.outcome = .answered answer → call ∈ more) :
    Derived more response result := by
  induction derived with
  | response => exact .response
  | expanded _ member answered issued ih =>
      exact .expanded ih (kept _ member _ answered) answered issued

/-- Every delta has the session id that its call was issued with. -/
theorem Derived.traceSessionId (derived : Derived calls response result) :
    result.traceMeta.traceSessionId = response.traceMeta.traceSessionId := by
  cases derived with
  | response => rfl
  | expanded _ _ _ issued => exact issued.symm

namespace LineageTrace

variable {trace next : LineageTrace Content} {event : LineageEvent Content} {i : Nat}

structure Sound (trace : LineageTrace Content) : Prop where
  success : trace.store.status = .success → ∃ response result,
    trace.starts.getLast? = some (.answered response) ∧ trace.store.result = some result ∧
      Derived trace.expands response result
  cleared : trace.cleared = true → trace.store.result = none

/-- When the response of an expand passes its check in a trace that has succeeded, the
current result has the session id that the expand was issued with. -/
def Matching (trace : LineageTrace Content) : LineageEvent Content → Prop
  | .expanded call _ _ => ∀ request ∈ trace.pendingExpand call,
      trace.current (.expand request.expandUrn) call = true → trace.store.status = .success →
        ∀ result ∈ trace.store.result,
          result.traceMeta.traceSessionId = some request.traceSessionId
  | .bindWorkspace _ | .start _ _ | .retrace | .expand _ | .clear | .setEdgeTypeFilter _
  | .filterDebounce | .traced _ _ | .traceFailed _ _ | .traceAborted _ | .expandFailed _ _
  | .expandAborted _ => True

/-- Only the latest start has the controller that its check compares with. -/
structure Tracked (trace : LineageTrace Content) : Prop where
  latest : ∀ call, trace.current .trace call = true → call + 1 = trace.starts.length
  unbound : truthy trace.store.wsId = none → trace.store.abortControllers.get .trace = none

/-- The answered calls stay. -/
structure Keeps (trace next : LineageTrace Content) : Prop where
  starts : ∀ response, trace.starts.getLast? = some (.answered response) →
    next.starts.getLast? = some (.answered response)
  expands : ∀ call ∈ trace.expands, ∀ answer, call.outcome = .answered answer →
    call ∈ next.expands

/-- What an event other than the response of an expand does to the result. -/
inductive Effect (trace next : LineageTrace Content) : Prop where
  | cleared (status : next.store.status ≠ .success) (result : next.store.result = none)
  | stopped (status : next.store.status ≠ .success)
      (result : next.store.result = trace.store.result) (cleared : next.cleared = trace.cleared)
  | quiet (status : next.store.status = trace.store.status)
      (result : next.store.result = trace.store.result) (cleared : next.cleared = trace.cleared)
      (keeps : Keeps trace next)
  | traced (response : TraceResultV2 Content)
      (latest : next.starts.getLast? = some (.answered response))
      (result : next.store.result = some response) (cleared : next.cleared = false)

theorem Keeps.refl (starts : next.starts = trace.starts) (expands : next.expands = trace.expands) :
    Keeps trace next := by
  refine ⟨?_, ?_⟩
  · intro response latest
    rw [starts]
    exact latest
  · intro call member _ _
    rw [expands]
    exact member

/-- The outcome of a call that is pending replaces no answer. -/
theorem Keeps.settleStart {call : Nat} {outcome : Awaited (TraceResultV2 Content)}
    (pending : trace.starts[call]? = some .pending)
    (starts : next.starts = trace.starts.set call outcome)
    (expands : next.expands = trace.expands) : Keeps trace next := by
  refine ⟨?_, ?_⟩
  · intro response latest
    have earlier : ¬ call + 1 = trace.starts.length := by
      intro last
      rw [List.getLast?_eq_getElem?, ← last, Nat.add_sub_cancel] at latest
      cases pending.symm.trans latest
    rw [starts, getLast?_set pending, if_neg earlier, latest]
  · intro other member _ _
    rw [expands]
    exact member

theorem pendingExpand_eq_some {call : Nat} {request : TraceExpandRequest}
    (pending : trace.pendingExpand call = some request) :
    trace.expands[call]? = some ⟨request, .pending⟩ := by
  simp only [pendingExpand] at pending
  split at pending
  · rename_i found
    cases pending
    exact found
  · cases pending

theorem Keeps.settleExpand {call : Nat} {request : TraceExpandRequest}
    {outcome : Awaited (TraceDeltaData Content × Content)}
    (pending : trace.pendingExpand call = some request)
    (starts : next.starts = trace.starts)
    (expands : next.expands = trace.expands.set call ⟨request, outcome⟩) : Keeps trace next := by
  refine ⟨?_, ?_⟩
  · intro response latest
    rw [starts]
    exact latest
  · intro other member answer answered
    obtain ⟨place, found⟩ := List.mem_iff_getElem?.mp member
    have apart : call ≠ place := by
      rintro rfl
      cases Option.some.inj ((pendingExpand_eq_some pending).symm.trans found)
      cases answered
    rw [expands]
    exact List.mem_of_getElem? ((List.getElem?_set_ne apart).trans found)

theorem start_stopped (focusUrn : String) (request : TraceRequest) :
    (trace.start focusUrn request).store.status ≠ .success ∧
      (trace.start focusUrn request).store.result = trace.store.result ∧
        (trace.start focusUrn request).cleared = trace.cleared := by
  simp only [start]
  split
  · exact ⟨nofun, rfl, rfl⟩
  · exact ⟨nofun, rfl, rfl⟩

theorem retrace_effect (trace : LineageTrace Content) : Effect trace trace.retrace := by
  simp only [retrace]
  split
  · rename_i focusUrn request _ _
    obtain ⟨status, result, cleared⟩ := trace.start_stopped focusUrn request
    exact .stopped status result cleared
  · exact .quiet rfl rfl rfl (.refl rfl rfl)

theorem expand_effect (urn : String) : Effect trace (trace.expand urn) := by
  simp only [expand]
  split
  · refine .quiet rfl rfl rfl ⟨fun _ latest => latest, ?_⟩
    intro call member _ _
    exact List.mem_append_left _ member
  · exact .quiet rfl rfl rfl (.refl rfl rfl)

theorem filterDebounce_effect : Effect trace trace.filterDebounce := by
  let fired : LineageTrace Content :=
    { trace with
      store := { trace.store with pendingFilterRetrace := false, filterDebounceTimer := false } }
  have effect : Effect fired trace.filterDebounce := fired.retrace_effect
  cases effect with
  | cleared status result => exact .cleared status result
  | stopped status result cleared => exact .stopped status result cleared
  | quiet status result cleared keeps =>
      exact .quiet status result cleared ⟨keeps.starts, keeps.expands⟩
  | traced response latest result cleared => exact .traced response latest result cleared

theorem traced_effect {call : Nat} {response : TraceResultV2 Content} (tracked : trace.Tracked)
    (pending : trace.starts[call]? = some .pending) :
    Effect trace (trace.traced call response) := by
  simp only [traced]
  split
  · rename_i current
    refine .traced response ?_ rfl rfl
    show (trace.starts.set call (.answered response)).getLast? = _
    rw [getLast?_set pending, if_pos (tracked.latest call current)]
  · exact .quiet rfl rfl rfl (.settleStart pending rfl rfl)

theorem traceFailed_effect {call : Nat} {failure : Failure}
    (pending : trace.starts[call]? = some .pending) :
    Effect trace (trace.traceFailed call failure) := by
  simp only [traceFailed]
  split
  · exact .stopped nofun rfl rfl
  · exact .quiet rfl rfl rfl (.settleStart pending rfl rfl)

theorem expandFailed_effect {call : Nat} {request : TraceExpandRequest} {failure : Failure}
    (pending : trace.pendingExpand call = some request) :
    Effect trace (trace.expandFailed call request failure) := by
  simp only [expandFailed]
  split
  · exact .quiet rfl rfl rfl (.settleExpand pending rfl rfl)
  · exact .quiet rfl rfl rfl (.settleExpand pending rfl rfl)

theorem expandAborted_effect {call : Nat} {request : TraceExpandRequest}
    (pending : trace.pendingExpand call = some request) :
    Effect trace (trace.expandAborted call request) := by
  simp only [expandAborted]
  split
  · exact .quiet rfl rfl rfl (.settleExpand pending rfl rfl)
  · exact .quiet rfl rfl rfl (.settleExpand pending rfl rfl)

theorem step_effect (tracked : trace.Tracked) (stepped : trace.step event = some next) :
    Effect trace next ∨ ∃ call data content request, event = .expanded call data content ∧
      trace.pendingExpand call = some request ∧
        trace.current (.expand request.expandUrn) call = true ∧
          next = trace.expanded call request data content := by
  cases event with
  | bindWorkspace wsId =>
      cases stepped
      simp only [bindWorkspace]
      split
      · exact .inl (.quiet rfl rfl rfl (.refl rfl rfl))
      · exact .inl (.cleared nofun rfl)
  | start focusUrn request =>
      cases stepped
      obtain ⟨status, result, cleared⟩ := trace.start_stopped focusUrn request
      exact .inl (.stopped status result cleared)
  | retrace =>
      cases stepped
      exact .inl trace.retrace_effect
  | expand urn =>
      cases stepped
      exact .inl (expand_effect urn)
  | clear =>
      cases stepped
      exact .inl (.cleared nofun rfl)
  | setEdgeTypeFilter types =>
      cases stepped
      simp only [setEdgeTypeFilter]
      split
      · exact .inl (.quiet rfl rfl rfl (.refl rfl rfl))
      · exact .inl (.quiet rfl rfl rfl (.refl rfl rfl))
  | filterDebounce =>
      simp only [step] at stepped
      split at stepped
      · cases stepped
        exact .inl filterDebounce_effect
      · cases stepped
  | traced call response =>
      simp only [step] at stepped
      split at stepped
      · rename_i pending
        cases stepped
        exact .inl (traced_effect tracked pending)
      · cases stepped
  | traceFailed call failure =>
      simp only [step] at stepped
      split at stepped
      · rename_i pending
        cases stepped
        exact .inl (traceFailed_effect pending)
      · cases stepped
  | traceAborted call =>
      simp only [step] at stepped
      split at stepped
      · rename_i pending
        cases stepped
        exact .inl (.quiet rfl rfl rfl (.settleStart pending rfl rfl))
      · cases stepped
  | expanded call data content =>
      obtain ⟨request, pending, rfl⟩ := Option.map_eq_some_iff.mp stepped
      by_cases current : trace.current (.expand request.expandUrn) call = true
      · exact .inr ⟨call, data, content, request, rfl, pending, current, rfl⟩
      · simp only [expanded]
        rw [if_neg current]
        exact .inl (.quiet rfl rfl rfl (.settleExpand pending rfl rfl))
  | expandFailed call failure =>
      obtain ⟨request, pending, rfl⟩ := Option.map_eq_some_iff.mp stepped
      exact .inl (expandFailed_effect pending)
  | expandAborted call =>
      obtain ⟨request, pending, rfl⟩ := Option.map_eq_some_iff.mp stepped
      exact .inl (expandAborted_effect pending)

theorem Sound.effect (sound : trace.Sound) (effect : Effect trace next) : next.Sound := by
  cases effect with
  | cleared status result => exact ⟨fun success => absurd success status, fun _ => result⟩
  | stopped status result cleared =>
      refine ⟨fun success => absurd success status, ?_⟩
      rw [cleared, result]
      exact sound.cleared
  | quiet status result cleared keeps =>
      refine ⟨?_, ?_⟩
      · rw [status, result]
        intro success
        obtain ⟨response, current, latest, found, derived⟩ := sound.success success
        exact ⟨response, current, keeps.starts response latest, found, derived.mono keeps.expands⟩
      · rw [cleared, result]
        exact sound.cleared
  | traced response latest result cleared =>
      refine ⟨fun _ => ⟨response, response, latest, result, .response⟩, ?_⟩
      rw [cleared]
      nofun

theorem expanded_eq {call : Nat} {request : TraceExpandRequest} (data : TraceDeltaData Content)
    (content : Content) (current : trace.current (.expand request.expandUrn) call = true) :
    (trace.expanded call request data content).store.status = trace.store.status ∧
      (trace.expanded call request data content).store.result =
        trace.store.result.map (fun result =>
          result.applied (request.delta data content) request.expandUrn) ∧
      (trace.expanded call request data content).cleared = trace.cleared := by
  simp only [expanded]
  rw [if_pos current]
  exact ⟨rfl, rfl, rfl⟩

theorem Sound.expanded_iff {call : Nat} {request : TraceExpandRequest}
    {data : TraceDeltaData Content} {content : Content} (sound : trace.Sound)
    (pending : trace.pendingExpand call = some request)
    (current : trace.current (.expand request.expandUrn) call = true) :
    (trace.expanded call request data content).Sound ↔ (trace.store.status = .success →
      ∀ result ∈ trace.store.result,
        result.traceMeta.traceSessionId = some request.traceSessionId) := by
  have keeps : Keeps trace (trace.expanded call request data content) := by
    simp only [expanded]
    rw [if_pos current]
    exact .settleExpand pending rfl rfl
  obtain ⟨status, after, cleared⟩ := expanded_eq data content current
  refine ⟨?_, ?_⟩
  · intro later success result found
    obtain ⟨response, current', latest, found', derived⟩ := sound.success success
    obtain ⟨response', merged, latest', merges, derived'⟩ := later.success (status.trans success)
    cases (keeps.starts response latest).symm.trans latest'
    cases found'.symm.trans found
    rw [after, found'] at merges
    cases merges
    exact derived.traceSessionId.trans derived'.traceSessionId.symm
  · intro matching
    refine ⟨?_, ?_⟩
    · intro success
      rw [status] at success
      obtain ⟨response, result, latest, found, derived⟩ := sound.success success
      have issued := derived.traceSessionId.symm.trans (matching success result found)
      refine ⟨response, result.applied (request.delta data content) request.expandUrn,
        keeps.starts response latest, ?_, ?_⟩
      · rw [after, found, Option.map_some]
      · have inside := (List.getElem?_eq_some_iff.mp (pendingExpand_eq_some pending)).1
        have settled : (⟨request, .answered (data, content)⟩ : ExpandCall Content) ∈
            (trace.expanded call request data content).expands := by
          simp only [expanded]
          rw [if_pos current]
          exact List.mem_set inside _
        exact .expanded (derived.mono keeps.expands) settled rfl issued
    · rw [cleared, after]
      intro clear
      rw [sound.cleared clear, Option.map_none]

theorem Tracked.keep (tracked : trace.Tracked) (wsId : next.store.wsId = trace.store.wsId)
    (controller : next.store.abortControllers.get .trace = trace.store.abortControllers.get .trace)
    (length : next.starts.length = trace.starts.length) : next.Tracked := by
  refine ⟨?_, ?_⟩
  · intro call current
    simp only [LineageTrace.current] at current
    rw [controller] at current
    rw [length]
    exact tracked.latest call current
  · rw [wsId, controller]
    exact tracked.unbound

theorem tracked_of_none (controller : trace.store.abortControllers.get .trace = none) :
    trace.Tracked := by
  refine ⟨?_, fun _ => controller⟩
  intro call current
  simp [LineageTrace.current, controller] at current

theorem Tracked.start (tracked : trace.Tracked) (focusUrn : String) (request : TraceRequest) :
    (trace.start focusUrn request).Tracked := by
  simp only [LineageTrace.start]
  split
  · rename_i unbound
    exact tracked_of_none (tracked.unbound unbound)
  · rename_i wsId bound
    refine ⟨?_, ?_⟩
    · intro call current
      simp only [LineageTrace.current, OrderedMap.get_set, ↓reduceIte, Option.some.injEq,
        decide_eq_true_eq] at current
      simp only [List.length_append, List.length_singleton, current]
    · intro unbound
      cases bound.symm.trans unbound

theorem Tracked.retrace (tracked : trace.Tracked) : trace.retrace.Tracked := by
  simp only [LineageTrace.retrace]
  split
  · exact tracked.start _ _
  · exact tracked

theorem Tracked.expand (tracked : trace.Tracked) (urn : String) : (trace.expand urn).Tracked := by
  simp only [LineageTrace.expand]
  split
  · refine tracked.keep rfl ?_ rfl
    exact OrderedMap.get_set
  · exact tracked

theorem Tracked.step (tracked : trace.Tracked) (stepped : trace.step event = some next) :
    next.Tracked := by
  cases event with
  | bindWorkspace wsId =>
      cases stepped
      simp only [bindWorkspace]
      split
      · exact tracked
      · exact tracked_of_none rfl
  | start focusUrn request =>
      cases stepped
      exact tracked.start focusUrn request
  | retrace =>
      cases stepped
      exact tracked.retrace
  | expand urn =>
      cases stepped
      exact tracked.expand urn
  | clear =>
      cases stepped
      exact tracked_of_none rfl
  | setEdgeTypeFilter types =>
      cases stepped
      simp only [setEdgeTypeFilter]
      split
      · exact tracked.keep rfl rfl rfl
      · exact tracked
  | filterDebounce =>
      simp only [LineageTrace.step] at stepped
      split at stepped
      · cases stepped
        simp only [filterDebounce]
        exact Tracked.retrace (tracked.keep rfl rfl rfl)
      · cases stepped
  | traced call response =>
      simp only [LineageTrace.step] at stepped
      split at stepped
      · cases stepped
        simp only [traced]
        split
        · exact tracked.keep rfl rfl List.length_set
        · exact tracked.keep rfl rfl List.length_set
      · cases stepped
  | traceFailed call failure =>
      simp only [LineageTrace.step] at stepped
      split at stepped
      · cases stepped
        simp only [traceFailed]
        split
        · exact tracked.keep rfl rfl List.length_set
        · exact tracked.keep rfl rfl List.length_set
      · cases stepped
  | traceAborted call =>
      simp only [LineageTrace.step] at stepped
      split at stepped
      · cases stepped
        exact tracked.keep rfl rfl List.length_set
      · cases stepped
  | expanded call data content =>
      obtain ⟨request, -, rfl⟩ := Option.map_eq_some_iff.mp stepped
      simp only [expanded]
      split
      · exact tracked.keep rfl rfl rfl
      · exact tracked.keep rfl rfl rfl
  | expandFailed call failure =>
      obtain ⟨request, -, rfl⟩ := Option.map_eq_some_iff.mp stepped
      simp only [expandFailed]
      split
      · exact tracked.keep rfl rfl rfl
      · exact tracked.keep rfl rfl rfl
  | expandAborted call =>
      obtain ⟨request, -, rfl⟩ := Option.map_eq_some_iff.mp stepped
      simp only [expandAborted]
      split
      · exact tracked.keep rfl rfl rfl
      · exact tracked.keep rfl rfl rfl

theorem Sound.step_iff (sound : trace.Sound) (tracked : trace.Tracked)
    (event : LineageEvent Content) :
    (∀ next, trace.step event = some next → next.Sound) ↔ trace.Matching event := by
  refine ⟨?_, ?_⟩
  · intro all
    cases event with
    | expanded call data content =>
        intro request pending current
        have stepped : trace.step (.expanded call data content) =
            some (trace.expanded call request data content) := by
          simp only [LineageTrace.step, Option.mem_def.mp pending, Option.map_some]
        exact (sound.expanded_iff pending current).mp (all _ stepped)
    | bindWorkspace wsId => trivial
    | start focusUrn request => trivial
    | retrace => trivial
    | expand urn => trivial
    | clear => trivial
    | setEdgeTypeFilter types => trivial
    | filterDebounce => trivial
    | traced call response => trivial
    | traceFailed call failure => trivial
    | traceAborted call => trivial
    | expandFailed call failure => trivial
    | expandAborted call => trivial
  · intro matching next stepped
    rcases step_effect tracked stepped with effect |
      ⟨call, data, content, request, rfl, pending, current, rfl⟩
    · exact sound.effect effect
    · exact (sound.expanded_iff pending current).mpr (matching request pending current)

/-- A successful trace has the result of the latest start throughout exactly in the runs in
which no delta of another session is merged into it. -/
theorem deltas_sound_iff (events : List (LineageEvent Content)) :
    Always step Sound init events ↔ Meets step Matching init events := by
  apply always_iff_meets Tracked
  · intro trace event next tracked stepped
    exact tracked.step stepped
  · intro trace event tracked sound
    exact sound.step_iff tracked event
  · exact tracked_of_none rfl
  · exact ⟨nofun, fun _ => rfl⟩

def answerOf (sessionId : String) : TraceResultV2 Unit :=
  ⟨⟨[⟨"orders", ()⟩], [], .empty, ["orders"], ()⟩, ⟨some sessionId, ()⟩⟩

def ordersDelta : TraceDeltaData Unit := ⟨[⟨"orders.id", ()⟩], [], [], ["orders.id"], .empty⟩

/-- A node of the first trace is expanded, and the second trace is there before the delta. -/
def retracedMeanwhile : List (LineageEvent Unit) :=
  [.bindWorkspace (some "ws_lineage"), .start "orders" .empty, .traced 0 (answerOf "session-1"),
    .expand "orders", .start "customers" .empty, .traced 1 (answerOf "session-2"),
    .expanded 0 ordersDelta ()]

theorem merged_session :
    (run step init retracedMeanwhile).map (fun last =>
        (last.store.status, last.starts.length,
          last.starts.getLast?.map fun start =>
            start.answer.bind fun response => response.traceMeta.traceSessionId,
          last.store.result.bind fun result => result.traceMeta.traceSessionId)) =
      some (.success, 2, some (some "session-2"), some "session-1") := by
  decide +kernel

theorem not_sound :
    ¬ ∀ last, run step init retracedMeanwhile = some last → last.Sound := by
  intro always
  obtain ⟨last, ran, shape⟩ := Option.map_eq_some_iff.mp merged_session
  simp only [Prod.mk.injEq] at shape
  obtain ⟨success, -, latest, merged⟩ := shape
  obtain ⟨response, result, latest', found, derived⟩ := (always last ran).success success
  simp only [latest', Option.map_some, Awaited.answer, Option.bind_some, Option.some.injEq]
    at latest
  simp only [found, Option.bind_some] at merged
  have sessions := derived.traceSessionId
  rw [latest, merged] at sessions
  exact absurd sessions (by decide)

end LineageTrace

end Univiz.TraceStore
