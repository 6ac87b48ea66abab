import Univiz.TraceStore.UnifiedTrace

namespace Univiz.TraceStore

open Univiz.Data

/-! When the unified trace shows what was requested last. -/

variable {Content : Type}

namespace UnifiedTrace

variable {trace next : UnifiedTrace Content} {event : TraceEvent Content} {call : Nat}

structure Current (trace : UnifiedTrace Content) : Prop where
  success : trace.store.status = .success → ∃ fetch result, trace.fetches.getLast? = some fetch ∧
    fetch.outcome = .answered result ∧ trace.store.result = some result ∧
      trace.store.focusId = some result.focusId
  cleared : trace.cleared = true → trace.store.result = none ∧ trace.store.status = .idle
  drilldowns : ∀ entry ∈ trace.store.drilldowns.entries, entry.2.requested = trace.traces

/-- An answer to `fetchTrace` arrives while its node is the focus, no `clearTrace` has come
after the latest call, and it is the answer to the latest call or the same as that. -/
def AnswersLatest (trace : UnifiedTrace Content) (call : Nat) (fetch : FetchCall Content)
    (result : TraceResult Content) : Prop :=
  trace.cleared = false ∧ trace.store.focusId = some fetch.nodeId ∧
    (call + 1 = trace.fetches.length ∨ ∃ latest, trace.fetches.getLast? = some latest ∧
      latest.outcome = .answered result)

/-- What arrives belongs to the trace that is shown: no error of a fetch after a
`clearTrace`, and no drill-down of an earlier trace.  A trace that has succeeded keeps its
focus. -/
def Timely (trace : UnifiedTrace Content) : TraceEvent Content → Prop
  | .setFocus nodeId => ∀ id ∈ nodeId, trace.store.status = .success →
      trace.store.focusId = some id
  | .fetched call answer => ∀ fetch ∈ trace.fetches[call]?, fetch.outcome = .pending →
      trace.AnswersLatest call fetch (answer.result fetch.nodeId fetch.urn)
  | .fetchFailed call _ => ∀ fetch ∈ trace.fetches[call]?, fetch.outcome = .pending →
      trace.cleared = false
  | .expanded call _ => ∀ expand ∈ trace.expands[call]?, expand.awaits = .edge →
      expand.requested = trace.traces
  | .batchExpanded call _ => ∀ expand ∈ trace.expands[call]?, expand.awaits = .batch →
      expand.requested = trace.traces
  | .perEdgeSettled call answers => ∀ expand ∈ trace.expands[call]?,
      ∀ batchError, expand.awaits = .perEdge batchError → answers.filterMap id ≠ [] →
        expand.requested = trace.traces
  | .fetchTrace _ _ | .clearTrace | .expandAggregatedEdge _ _ _ | .expandFailed _ _
  | .expandAggregatedEdgesBatch _ _ | .batchFailed _ _ => True

theorem setFocus_current (current : trace.Current) (nodeId : Option String) :
    (trace.setFocus nodeId).Current ↔ ∀ id ∈ nodeId, trace.store.status = .success →
      trace.store.focusId = some id := by
  cases nodeId with
  | none =>
      refine ⟨fun _ => nofun, fun _ => ⟨nofun, fun _ => ⟨rfl, rfl⟩, ?_⟩⟩
      intro entry member
      cases member
  | some nodeId =>
      refine ⟨?_, ?_⟩
      · rintro later id ⟨⟩ success
        obtain ⟨fetch, result, latest, answered, found, focus⟩ := current.success success
        obtain ⟨fetch', result', latest', answered', found', focus'⟩ := later.success success
        cases found.symm.trans found'
        exact focus.trans focus'.symm
      · intro kept
        refine ⟨?_, current.cleared, current.drilldowns⟩
        intro success
        obtain ⟨fetch, result, latest, answered, found, focus⟩ := current.success success
        exact ⟨fetch, result, latest, answered, found,
          (kept nodeId rfl success).symm.trans focus⟩

theorem fetchTrace_current (nodeId urn : String) : (trace.fetchTrace nodeId urn).Current := by
  refine ⟨nofun, nofun, ?_⟩
  intro entry member
  cases member

theorem clearTrace_current : trace.clearTrace.Current := by
  refine ⟨nofun, fun _ => ⟨rfl, rfl⟩, ?_⟩
  intro entry member
  cases member

theorem request_current (current : trace.Current) {pairs : List ExpandPair}
    {nonempty : pairs ≠ []} {awaits : Expansion} :
    (trace.request pairs nonempty awaits).Current :=
  ⟨current.success, current.cleared, current.drilldowns⟩

theorem fetched_current (current : trace.Current) {fetch : FetchCall Content}
    {answer : TraceAnswer Content} (found : trace.fetches[call]? = some fetch) :
    (trace.fetched call fetch.nodeId fetch.urn answer).Current ↔
      trace.AnswersLatest call fetch (answer.result fetch.nodeId fetch.urn) := by
  have last : (trace.fetched call fetch.nodeId fetch.urn answer).fetches.getLast? =
      if call + 1 = trace.fetches.length then
        some ⟨fetch.nodeId, fetch.urn, .answered (answer.result fetch.nodeId fetch.urn)⟩
      else trace.fetches.getLast? := getLast?_set found
  unfold AnswersLatest
  refine ⟨?_, ?_⟩
  · intro later
    obtain ⟨fetch', result, latest, answered, shown, focus⟩ := later.success rfl
    cases shown
    refine ⟨?_, ?_, ?_⟩
    · rw [← Bool.not_eq_true]
      intro cleared
      cases (later.cleared cleared).2
    · rw [TraceAnswer.result_focusId] at focus
      exact focus
    · rw [last] at latest
      split at latest
      · rename_i here
        exact .inl here
      · exact .inr ⟨fetch', latest, answered⟩
  · intro ⟨cleared, focus, latest⟩
    refine ⟨?_, ?_, current.drilldowns⟩
    · intro _
      have shown : ∃ fetch', (trace.fetched call fetch.nodeId fetch.urn answer).fetches.getLast? =
          some fetch' ∧ fetch'.outcome = .answered (answer.result fetch.nodeId fetch.urn) := by
        rw [last]
        split
        · exact ⟨_, rfl, rfl⟩
        · rename_i earlier
          exact latest.resolve_left earlier
      obtain ⟨fetch', latest, answered⟩ := shown
      refine ⟨fetch', _, latest, answered, rfl, ?_⟩
      rw [TraceAnswer.result_focusId]
      exact focus
    · intro cleared'
      exact absurd (cleared.symm.trans cleared') Bool.false_ne_true

theorem fetchFailed_current (current : trace.Current) {nodeId urn : String}
    {message : Option String} :
    (trace.fetchFailed call nodeId urn message).Current ↔ trace.cleared = false := by
  refine ⟨?_, ?_⟩
  · intro later
    rw [← Bool.not_eq_true]
    intro cleared
    cases (later.cleared cleared).2
  · intro uncleared
    refine ⟨nofun, ?_, current.drilldowns⟩
    intro cleared
    exact absurd (uncleared.symm.trans cleared) Bool.false_ne_true

/-- An expansion leaves drill-downs of the trace in which it was requested. -/
theorem settle_current (current : trace.Current) {expand : Expand}
    {merged : Option (TraceV2Result Content)} {error : Option String} :
    (trace.settle call expand merged error).Current ↔
      (merged.isSome = true → expand.requested = trace.traces) := by
  cases merged with
  | none =>
      refine ⟨fun _ answered => (by cases answered), fun _ => ?_⟩
      exact ⟨current.success, current.cleared, current.drilldowns⟩
  | some result =>
      simp only [Option.isSome_some, true_implies]
      refine ⟨?_, ?_⟩
      · intro later
        obtain ⟨pair, rest, first⟩ := List.exists_cons_of_ne_nil expand.nonempty
        have written : (trace.settle call expand (some result) error).store.drilldowns.get
            pair.drilldownKey = some ⟨result, expand.requested⟩ := by
          simp only [settle, OrderedMap.get_foldl_set, first, List.map_cons, List.mem_cons,
            true_or, ↓reduceIte]
        exact later.drilldowns _ (OrderedMap.get_eq_some.mp written)
      · intro requested
        refine ⟨current.success, current.cleared, ?_⟩
        intro entry member
        obtain ⟨key, drilldown⟩ := entry
        have found := OrderedMap.get_eq_some.mpr member
        simp only [settle, OrderedMap.get_foldl_set] at found
        split at found
        · cases found
          exact requested
        · exact current.drilldowns _ (OrderedMap.get_eq_some.mp found)

/-- The end of a pending fetch keeps the store current exactly if it meets its condition. -/
theorem fetch_iff {ended : String → String → UnifiedTrace Content}
    {condition : FetchCall Content → Prop}
    (kept : ∀ fetch, trace.fetches[call]? = some fetch →
      ((ended fetch.nodeId fetch.urn).Current ↔ condition fetch)) :
    (∀ next, (match trace.fetches[call]? with
        | some ⟨nodeId, urn, .pending⟩ => some (ended nodeId urn)
        | _ => none) = some next → next.Current) ↔
      ∀ fetch ∈ trace.fetches[call]?, fetch.outcome = .pending → condition fetch := by
  cases found : trace.fetches[call]? with
  | none => simp
  | some fetch =>
      obtain ⟨nodeId, urn, outcome⟩ := fetch
      cases outcome with
      | pending =>
          simp only [Option.some.injEq, forall_eq', Option.mem_def, forall_const]
          exact kept _ found
      | answered result => simp
      | failed => simp

theorem fetched_iff (current : trace.Current) (answer : TraceAnswer Content) :
    (∀ next, trace.step (.fetched call answer) = some next → next.Current) ↔
      trace.Timely (.fetched call answer) :=
  fetch_iff fun _ found => fetched_current current found

theorem fetchFailed_iff (current : trace.Current) (message : Option String) :
    (∀ next, trace.step (.fetchFailed call message) = some next → next.Current) ↔
      trace.Timely (.fetchFailed call message) :=
  fetch_iff fun _ _ => fetchFailed_current current

theorem expanded_iff (current : trace.Current) (answer : TraceV2Result Content) :
    (∀ next, trace.step (.expanded call answer) = some next → next.Current) ↔
      trace.Timely (.expanded call answer) := by
  simp only [step, Timely]
  cases found : trace.expands[call]? with
  | none => simp
  | some expand =>
      obtain ⟨requested, pairs, nonempty, awaits⟩ := expand
      cases awaits with
      | edge =>
          simp only [Option.some.injEq, forall_eq', Option.mem_def, forall_const,
            settle_current current, Option.isSome_some]
      | batch => simp
      | perEdge batchError => simp
      | ended => simp

theorem batchExpanded_iff (current : trace.Current) (answer : TraceV2Result Content) :
    (∀ next, trace.step (.batchExpanded call answer) = some next → next.Current) ↔
      trace.Timely (.batchExpanded call answer) := by
  simp only [step, Timely]
  cases found : trace.expands[call]? with
  | none => simp
  | some expand =>
      obtain ⟨requested, pairs, nonempty, awaits⟩ := expand
      cases awaits with
      | batch =>
          simp only [Option.some.injEq, forall_eq', Option.mem_def, forall_const,
            settle_current current, Option.isSome_some]
      | edge => simp
      | perEdge batchError => simp
      | ended => simp

theorem perEdgeSettled_iff (current : trace.Current)
    (answers : List (Option (TraceV2Result Content))) :
    (∀ next, trace.step (.perEdgeSettled call answers) = some next → next.Current) ↔
      trace.Timely (.perEdgeSettled call answers) := by
  simp only [step, Timely]
  cases found : trace.expands[call]? with
  | none => simp
  | some expand =>
      obtain ⟨requested, pairs, nonempty, awaits⟩ := expand
      cases awaits with
      | perEdge batchError =>
          simp only [Option.some.injEq, forall_eq', Option.mem_def, Expansion.perEdge.injEq]
          rw [← mergeDrilldownResults_isSome, perEdgeSettled]
          cases mergeDrilldownResults (answers.filterMap id) with
          | none => simp [settle_current current]
          | some merged => simp [settle_current current]
      | edge => simp
      | batch => simp
      | ended => simp

theorem Current.step_iff (current : trace.Current) (event : TraceEvent Content) :
    (∀ next, trace.step event = some next → next.Current) ↔ trace.Timely event := by
  cases event with
  | setFocus nodeId =>
      simp only [step, Option.some.injEq, forall_eq']
      exact setFocus_current current nodeId
  | fetched call answer => exact fetched_iff current answer
  | fetchFailed call message => exact fetchFailed_iff current message
  | expanded call answer => exact expanded_iff current answer
  | batchExpanded call answer => exact batchExpanded_iff current answer
  | perEdgeSettled call answers => exact perEdgeSettled_iff current answers
  | fetchTrace nodeId urn =>
      refine ⟨fun _ => trivial, ?_⟩
      rintro - next ⟨⟩
      exact fetchTrace_current nodeId urn
  | clearTrace =>
      refine ⟨fun _ => trivial, ?_⟩
      rintro - next ⟨⟩
      exact clearTrace_current
  | expandAggregatedEdge sourceUrn targetUrn currentLevel =>
      refine ⟨fun _ => trivial, ?_⟩
      rintro - next ⟨⟩
      unfold expandAggregatedEdge
      dsimp only
      split
      · exact current
      · exact request_current current
  | expandAggregatedEdgesBatch pairs supported =>
      refine ⟨fun _ => trivial, ?_⟩
      rintro - next ⟨⟩
      unfold expandAggregatedEdgesBatch
      dsimp only
      split
      · exact request_current current
      · exact current
  | expandFailed call message =>
      refine ⟨fun _ => trivial, ?_⟩
      intro _ next stepped
      simp only [step] at stepped
      split at stepped
      · cases stepped
        exact (settle_current current).mpr nofun
      · cases stepped
  | batchFailed call message =>
      refine ⟨fun _ => trivial, ?_⟩
      intro _ next stepped
      simp only [step] at stepped
      split at stepped
      · cases stepped
        exact ⟨current.success, current.cleared, current.drilldowns⟩
      · cases stepped

/-- The store shows what was requested last throughout exactly in the runs in which all that
arrives belongs to the trace that is shown. -/
theorem shown_current_iff (events : List (TraceEvent Content)) :
    Always step Current init events ↔ Meets step Timely init events := by
  apply always_iff_meets fun _ => True
  · intro _ _ _ _ _
    trivial
  · intro trace event _ current
    exact current.step_iff event
  · trivial
  · refine ⟨nofun, nofun, ?_⟩
    intro entry member
    cases member

def emptyAnswer : TraceV2Result Unit := ⟨[], [], [], [], [], (), 0, false, none, false, none, none⟩

/-- The answer for an earlier focus comes last. -/
def overtaken : List (TraceEvent Unit) :=
  [.fetchTrace "orders" "urn:orders", .fetchTrace "customers" "urn:customers",
    .fetched 1 (.v2 emptyAnswer), .fetched 0 (.v2 emptyAnswer)]

def clearedMeanwhile : List (TraceEvent Unit) :=
  [.fetchTrace "orders" "urn:orders", .clearTrace, .fetched 0 (.v2 emptyAnswer)]

/-- An edge of the first trace is expanded, and the drill-down is there in the second. -/
def carriedOver : List (TraceEvent Unit) :=
  [.fetchTrace "orders" "urn:orders", .fetched 0 (.v2 emptyAnswer),
    .expandAggregatedEdge "urn:sales" "urn:finance" 0, .fetchTrace "customers" "urn:customers",
    .expanded 0 emptyAnswer]

theorem late_answers :
    (run step init overtaken).map (fun last =>
        (last.store.status, last.store.focusId, last.store.result.map TraceResult.focusId)) =
      some (.success, some "customers", some "orders") ∧
    (run step init clearedMeanwhile).map (fun last => (last.cleared, last.store.status)) =
      some (true, .success) ∧
    (run step init carriedOver).map (fun last =>
        (last.store.drilldowns.entries.map fun entry => entry.2.requested, last.traces)) =
      some ([1], 2) := by
  decide +kernel

theorem not_current :
    ¬ ∃ events ∈ [overtaken, clearedMeanwhile, carriedOver],
      ∀ last, run step init events = some last → last.Current := by
  intro ⟨events, member, always⟩
  simp only [List.mem_cons, List.not_mem_nil, or_false] at member
  rcases member with rfl | rfl | rfl
  · obtain ⟨last, ran, shape⟩ := Option.map_eq_some_iff.mp late_answers.1
    simp only [Prod.mk.injEq] at shape
    obtain ⟨success, focused, shown⟩ := shape
    obtain ⟨fetch, result, -, -, found, focus⟩ := (always last ran).success success
    rw [found, Option.map_some, ← focus, focused] at shown
    exact absurd shown (by decide)
  · obtain ⟨last, ran, shape⟩ := Option.map_eq_some_iff.mp late_answers.2.1
    simp only [Prod.mk.injEq] at shape
    have idle := ((always last ran).cleared shape.1).2
    rw [shape.2] at idle
    cases idle
  · obtain ⟨last, ran, shape⟩ := Option.map_eq_some_iff.mp late_answers.2.2
    simp only [Prod.mk.injEq] at shape
    have listed : 1 ∈ last.store.drilldowns.entries.map fun entry => entry.2.requested := by
      rw [shape.1]
      exact List.mem_singleton_self 1
    obtain ⟨entry, inside, requested⟩ := List.mem_map.mp listed
    have current := (always last ran).drilldowns entry inside
    rw [requested, shape.2] at current
    exact absurd current (by decide)

end UnifiedTrace

end Univiz.TraceStore
