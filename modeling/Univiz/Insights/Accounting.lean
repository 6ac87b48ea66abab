import Univiz.Insights.Outcomes

namespace Univiz.Insights

open Univiz.Data

/-! What the drains make of the reports. -/

variable {α : Type} [DecidableEq α] {controller next : AdmissionController α}
  {event : OutcomeEvent α} {providerId : α} {succeeded : Bool} {taken : Drain α} {i : Nat}

/-- A drain commits before the later ones with the same providers do.  When it raises,
none of these has begun, and no report has changed the number of failures in a row since.
No drain is cancelled. -/
def OutcomeEvent.Orderly (controller : AdmissionController α) : OutcomeEvent α → Prop
  | .commits i => ∀ drain ∈ controller.drains[i]?, ∀ entry ∈ drain.snapshot.entries,
      ∀ later ∈ controller.drains.drop (i + 1),
        (later.snapshot.get entry.1).isSome → later.state ≠ .committed
  | .raises i => ∀ drain ∈ controller.drains[i]?, ∀ entry ∈ drain.snapshot.entries,
      (∀ existing ∈ controller.pending.get entry.1,
        existing.consecutiveFailures = entry.2.consecutiveFailures) ∧
      ∀ later ∈ controller.drains.drop (i + 1),
        (later.snapshot.get entry.1).isSome → later.state = .raised
  | .cancelled _ => False
  | _ => True

instance : DecidablePred (OutcomeEvent.Orderly controller)
  | .commits i => inferInstanceAs (Decidable (∀ drain ∈ controller.drains[i]?,
      ∀ entry ∈ drain.snapshot.entries, ∀ later ∈ controller.drains.drop (i + 1),
        (later.snapshot.get entry.1).isSome → later.state ≠ .committed))
  | .raises i => inferInstanceAs (Decidable (∀ drain ∈ controller.drains[i]?,
      ∀ entry ∈ drain.snapshot.entries,
      (∀ existing ∈ controller.pending.get entry.1,
        existing.consecutiveFailures = entry.2.consecutiveFailures) ∧
      ∀ later ∈ controller.drains.drop (i + 1),
        (later.snapshot.get entry.1).isSome → later.state = .raised))
  | .cancelled _ => isFalse id
  | .success _ | .failure _ | .latency _ _ | .drain => isTrue trivial

/-- The failures in a row that a drain which has not failed brings for a provider. -/
def Drain.brings (providerId : α) (drain : Drain α) : Option Nat :=
  if drain.state = .running ∨ drain.state = .committed then
    (drain.snapshot.get providerId).map (·.consecutiveFailures)
  else none

def Drain.brought (providerId : α) (drain : Drain α) : Option Nat :=
  if drain.state = .committed then
    (drain.snapshot.get providerId).map (·.consecutiveFailures)
  else none

/-- Every outcome of a buffer stands for a report. -/
def OutcomeBuffer.Reports (buffer : OutcomeBuffer α) : Prop :=
  ∀ providerId, ∀ outcome ∈ buffer.get providerId,
    ¬ (outcome.successDelta = 0 ∧ outcome.failureDelta = 0)

/-- Where the reports are, and where the latest number of failures in a row is. -/
structure AdmissionController.Consistent (controller : AdmissionController α) : Prop where
  counted : ∀ providerId succeeded, controller.persisted providerId succeeded +
    controller.pendingDelta providerId succeeded = controller.reported providerId succeeded
  buffered : controller.pending.Reports
  drained : ∀ drain ∈ controller.drains, drain.snapshot.Reports
  current : ∀ providerId, ∀ outcome ∈ controller.pending.get providerId,
    controller.consecutiveFailures.get providerId = some outcome.consecutiveFailures
  newest : ∀ providerId, controller.pending.get providerId = none →
    controller.consecutiveFailures.get providerId =
      (controller.drains.filterMap (Drain.brings providerId)).getLast?
  stored : ∀ providerId, (controller.rows.get providerId).map (·.consecutiveFailures) =
    (controller.drains.filterMap (Drain.brought providerId)).getLast?

theorem eq_none_of_upserted {row : Option ProviderHealthWindow} {outcome : PendingOutcome}
    (skipped : upserted row outcome = none) : row = none := by
  cases row with
  | none => rfl
  | some row =>
      simp only [upserted] at skipped
      split at skipped <;> cases skipped

theorem get_foldl_upsert (rows : OrderedMap α ProviderHealthWindow)
    (snapshot : OutcomeBuffer α) (providerId : α) :
    (snapshot.entries.foldl upsert rows).get providerId =
      ((snapshot.get providerId).map (upserted (rows.get providerId))).getD
        (rows.get providerId) := by
  refine OrderedMap.get_foldl_write ?_ snapshot.distinct
  intro map entry key
  cases row : upserted (map.get entry.1) entry.2 with
  | none =>
      have untouched : upsert map entry = map := by simp only [upsert, row]
      rw [untouched]
      by_cases same : entry.1 = key
      · subst same
        rw [if_pos rfl, row, eq_none_of_upserted row]
      · rw [if_neg same]
  | some row' =>
      have written : upsert map entry = map.set entry.1 row' := by simp only [upsert, row]
      rw [written, OrderedMap.get_set]
      by_cases same : entry.1 = key
      · subst same
        rw [if_pos rfl, if_pos rfl, row]
      · rw [if_neg same, if_neg same]

theorem get_foldl_foldBack (buffer snapshot : OutcomeBuffer α) (providerId : α) :
    (snapshot.entries.foldl foldBack buffer).get providerId =
      ((snapshot.get providerId).map fun outcome =>
        some (folded (buffer.get providerId) outcome)).getD (buffer.get providerId) := by
  let act : Option PendingOutcome → PendingOutcome → Option PendingOutcome :=
    fun existing outcome => some (folded existing outcome)
  have concerns : ∀ map (entry : α × PendingOutcome) key, (foldBack map entry).get key =
      if entry.1 = key then act (map.get key) entry.2 else map.get key := by
    intro map entry key
    rw [foldBack, OrderedMap.get_set]
    by_cases same : entry.1 = key
    · subst same
      simp only [↓reduceIte, act]
    · rw [if_neg same, if_neg same]
  exact OrderedMap.get_foldl_write concerns snapshot.distinct

theorem count_upserted (row : Option ProviderHealthWindow) (outcome : PendingOutcome) :
    ((upserted row outcome).map (·.count succeeded)).getD 0 =
      (row.map (·.count succeeded)).getD 0 + outcome.delta succeeded := by
  simp only [upserted]
  split
  · rename_i none
    cases succeeded <;> simp [PendingOutcome.delta, none]
  · cases row <;> cases succeeded <;>
      simp [ProviderHealthWindow.count, PendingOutcome.delta]

theorem delta_folded (existing : Option PendingOutcome) (outcome : PendingOutcome) :
    (folded existing outcome).delta succeeded =
      (existing.map (·.delta succeeded)).getD 0 + outcome.delta succeeded := by
  cases existing <;> cases succeeded <;> simp [folded, PendingOutcome.delta]

theorem consecutiveFailures_upserted {row : Option ProviderHealthWindow}
    {outcome : PendingOutcome}
    (reports : ¬ (outcome.successDelta = 0 ∧ outcome.failureDelta = 0)) :
    (upserted row outcome).map (·.consecutiveFailures) = some outcome.consecutiveFailures := by
  simp only [upserted, if_neg reports]
  cases row <;> rfl

theorem consecutiveFailures_folded (existing : Option PendingOutcome)
    (outcome : PendingOutcome) :
    (folded existing outcome).consecutiveFailures = outcome.consecutiveFailures := by
  cases existing <;> rfl

theorem reports_folded {existing : Option PendingOutcome} {outcome : PendingOutcome}
    (reports : ¬ (outcome.successDelta = 0 ∧ outcome.failureDelta = 0)) :
    ¬ ((folded existing outcome).successDelta = 0 ∧
      (folded existing outcome).failureDelta = 0) := by
  cases existing with
  | none => exact reports
  | some existing =>
      simp only [folded]
      omega

theorem sum_map_set {β : Type} {parties : List β} {found replacement : β}
    (weight : β → Nat) (lookup : parties[i]? = some found) :
    ((parties.set i replacement).map weight).sum + weight found =
      (parties.map weight).sum + weight replacement := by
  induction parties generalizing i with
  | nil => cases lookup
  | cons first rest ih =>
      cases i with
      | zero =>
          cases lookup
          simp only [List.set_cons_zero, List.map_cons, List.sum_cons]
          omega
      | succ i =>
          have later := ih lookup
          simp only [List.set_cons_succ, List.map_cons, List.sum_cons]
          omega

namespace AdmissionController

omit [DecidableEq α] in
theorem running_eq_some (lookup : controller.running i = some taken) :
    controller.drains[i]? = some taken ∧ taken.state = .running := by
  simpa [running, Option.filter_eq_some_iff] using lookup

/-- The end of a drain takes its snapshot out of what is pending. -/
theorem sum_delta_ended (lookup : controller.running i = some taken) {state : DrainState}
    (ends : state ≠ .running) :
    ((controller.ended i taken state).drains.map (Drain.delta providerId succeeded)).sum +
        taken.snapshot.delta providerId succeeded =
      (controller.drains.map (Drain.delta providerId succeeded)).sum := by
  have ⟨found, runs⟩ := running_eq_some lookup
  let replacement : Drain α := { taken with state }
  have total : ((controller.drains.set i replacement).map (Drain.delta providerId succeeded)).sum +
      taken.delta providerId succeeded =
        (controller.drains.map (Drain.delta providerId succeeded)).sum +
          replacement.delta providerId succeeded := sum_map_set _ found
  simpa [ended, Drain.delta, runs, ends, replacement] using total

theorem drained_ended (lookup : controller.running i = some taken) {state : DrainState}
    (drained : ∀ drain ∈ controller.drains, drain.snapshot.Reports) :
    ∀ other ∈ (controller.ended i taken state).drains, other.snapshot.Reports := by
  have ⟨found, _⟩ := running_eq_some lookup
  intro other member
  rcases List.mem_or_eq_of_mem_set member with earlier | same
  · exact drained other earlier
  · subst same
    exact drained taken (List.mem_of_getElem? found)

/-- A report with the number of failures in a row behind it. -/
def observed (controller : AdmissionController α) (providerId : α) (failures : Nat)
    (succeeded : Bool) : AdmissionController α :=
  { controller with
    consecutiveFailures := controller.consecutiveFailures.set providerId failures
    }.persistOutcome providerId succeeded

theorem get_observed {failures : Nat} {other : α} :
    (controller.observed providerId failures succeeded).pending.get other =
      if providerId = other then
        let bucket := (controller.pending.get providerId).getD {}
        some { successDelta := if succeeded then bucket.successDelta + 1 else bucket.successDelta
               failureDelta := if succeeded then bucket.failureDelta else bucket.failureDelta + 1
               consecutiveFailures := failures
               lastDurationMs := controller.lastDurations.get providerId }
      else controller.pending.get other := by
  simp only [observed, persistOutcome, OrderedMap.get_set, ↓reduceIte, Option.getD_some]

theorem reported_observed {failures : Nat} {other : α} {kind : Bool} :
    (controller.observed providerId failures succeeded).reported other kind =
      controller.reported other kind + if (providerId, succeeded) = (other, kind) then 1 else 0 := by
  simp only [reported, observed, persistOutcome, List.count_cons, beq_iff_eq]

theorem delta_observed {failures : Nat} {other : α} {kind : Bool} :
    (controller.observed providerId failures succeeded).pending.delta other kind =
      controller.pending.delta other kind +
        if (providerId, succeeded) = (other, kind) then 1 else 0 := by
  simp only [OutcomeBuffer.delta, get_observed, Prod.mk.injEq]
  by_cases same : providerId = other
  · subst same
    cases controller.pending.get providerId <;> cases succeeded <;> cases kind <;>
      simp [PendingOutcome.delta]
  · simp only [same, false_and, ↓reduceIte, Nat.add_zero]

theorem Consistent.observed (consistent : controller.Consistent) (failures : Nat) :
    (controller.observed providerId failures succeeded).Consistent where
  counted := by
    intro other kind
    have counted := consistent.counted other kind
    have kept : (controller.observed providerId failures succeeded).persisted other kind =
        controller.persisted other kind := rfl
    have drains : (controller.observed providerId failures succeeded).drains =
        controller.drains := rfl
    rw [pendingDelta, reported_observed, delta_observed, kept, drains, ← counted, pendingDelta]
    omega
  buffered := by
    intro other outcome lookup
    rw [Option.mem_def, get_observed] at lookup
    by_cases same : providerId = other
    · rw [if_pos same] at lookup
      cases lookup
      cases succeeded <;> simp
    · rw [if_neg same] at lookup
      exact consistent.buffered other outcome lookup
  drained := consistent.drained
  current := by
    intro other outcome lookup
    rw [Option.mem_def, get_observed] at lookup
    simp only [AdmissionController.observed, persistOutcome, OrderedMap.get_set]
    by_cases same : providerId = other
    · rw [if_pos same] at lookup ⊢
      cases lookup
      rfl
    · rw [if_neg same] at lookup ⊢
      exact consistent.current other outcome lookup
  newest := by
    intro other none
    rw [get_observed] at none
    by_cases same : providerId = other
    · rw [if_pos same] at none
      cases none
    · rw [if_neg same] at none
      simp only [AdmissionController.observed, persistOutcome, OrderedMap.get_set, if_neg same]
      exact consistent.newest other none
  stored := consistent.stored

theorem Consistent.drain (consistent : controller.Consistent) : controller.drain.Consistent := by
  simp only [AdmissionController.drain]
  split
  · exact consistent
  · refine ⟨?_, ?_, ?_, ?_, ?_, ?_⟩
    · intro other kind
      have counted := consistent.counted other kind
      simpa [pendingDelta, persisted, reported, OutcomeBuffer.delta, Drain.delta,
        Nat.add_comm] using counted
    · intro other outcome lookup
      cases lookup
    · intro drain member
      rcases List.mem_append.mp member with earlier | new
      · exact consistent.drained drain earlier
      · rw [List.mem_singleton.mp new]
        exact consistent.buffered
    · intro other outcome lookup
      cases lookup
    · intro other _
      rw [List.filterMap_append, List.getLast?_append]
      cases buffered : controller.pending.get other with
      | none =>
          simpa [Drain.brings, buffered] using consistent.newest other buffered
      | some outcome =>
          simpa [Drain.brings, buffered] using consistent.current other outcome buffered
    · intro other
      have stored := consistent.stored other
      simpa [List.filterMap_append, Drain.brought] using stored

theorem count_foldl_upsert (rows : OrderedMap α ProviderHealthWindow)
    (snapshot : OutcomeBuffer α) :
    (((snapshot.entries.foldl upsert rows).get providerId).map (·.count succeeded)).getD 0 =
      ((rows.get providerId).map (·.count succeeded)).getD 0 +
        snapshot.delta providerId succeeded := by
  rw [get_foldl_upsert, OutcomeBuffer.delta]
  cases snapshot.get providerId with
  | none => rfl
  | some outcome => exact count_upserted _ _

theorem delta_foldl_foldBack (buffer snapshot : OutcomeBuffer α) :
    OutcomeBuffer.delta (snapshot.entries.foldl foldBack buffer) providerId succeeded =
      buffer.delta providerId succeeded + snapshot.delta providerId succeeded := by
  rw [OutcomeBuffer.delta, get_foldl_foldBack, OutcomeBuffer.delta, OutcomeBuffer.delta]
  cases snapshot.get providerId with
  | none => rfl
  | some outcome => exact delta_folded _ _

/-- In order, the drain that commits is the last one that has brought its failures. -/
theorem brought_commits (lookup : controller.running i = some taken)
    (orderly : OutcomeEvent.Orderly controller (.commits i)) {outcome : PendingOutcome}
    (held : taken.snapshot.get providerId = some outcome) :
    ((controller.ended i taken .committed).drains.filterMap (Drain.brought providerId)).getLast? =
      some outcome.consecutiveFailures := by
  have ⟨found, runs⟩ := running_eq_some lookup
  let committed : Drain α := { taken with state := .committed }
  have here : (controller.drains.set i committed)[i]? = some committed :=
    List.getElem?_set_self (List.getElem?_eq_some_iff.mp found).1
  have viewed : committed.brought providerId = some outcome.consecutiveFailures := by
    simp [committed, Drain.brought, held]
  refine getLast?_filterMap here viewed ?_
  intro later member
  rw [AdmissionController.ended, List.drop_set_of_lt (Nat.lt_succ_self i)] at member
  have order := orderly taken found (providerId, outcome) (OrderedMap.get_eq_some.mp held) later
    member
  cases holds : later.snapshot.get providerId with
  | none => simp [Drain.brought, holds]
  | some value => simp [Drain.brought, order (by simp [holds])]

theorem Consistent.commits (consistent : controller.Consistent)
    (lookup : controller.running i = some taken)
    (orderly : OutcomeEvent.Orderly controller (.commits i)) :
    ({ controller.ended i taken .committed with
      rows := taken.snapshot.entries.foldl upsert controller.rows
      } : AdmissionController α).Consistent where
  counted := by
    intro other kind
    have counted := consistent.counted other kind
    have left := @sum_delta_ended _ _ _ other kind _ _ lookup .committed nofun
    have written := @count_foldl_upsert _ _ other kind controller.rows taken.snapshot
    simp only [persisted, pendingDelta, reported, AdmissionController.ended] at counted left ⊢
    omega
  buffered := consistent.buffered
  drained := drained_ended lookup consistent.drained
  current := consistent.current
  newest := by
    intro other none
    have ⟨found, runs⟩ := running_eq_some lookup
    have same : Drain.brings other { taken with state := .committed } = taken.brings other := by
      simp [Drain.brings, runs]
    rw [AdmissionController.ended, filterMap_set found same]
    exact consistent.newest other none
  stored := by
    intro other
    rw [get_foldl_upsert]
    have ⟨found, runs⟩ := running_eq_some lookup
    cases held : taken.snapshot.get other with
    | none =>
        have same : Drain.brought other { taken with state := .committed } =
            taken.brought other := by
          simp [Drain.brought, runs, held]
        rw [AdmissionController.ended, filterMap_set found same]
        exact consistent.stored other
    | some outcome =>
        have reports := consistent.drained taken (List.mem_of_getElem? found) other outcome held
        exact (consecutiveFailures_upserted reports).trans
          (brought_commits lookup orderly held).symm

/-- In order, what a drain that raises puts back is the latest number of failures. -/
theorem Consistent.latest_raises (consistent : controller.Consistent)
    (lookup : controller.running i = some taken)
    (orderly : OutcomeEvent.Orderly controller (.raises i)) {outcome : PendingOutcome}
    (held : taken.snapshot.get providerId = some outcome) :
    controller.consecutiveFailures.get providerId = some outcome.consecutiveFailures := by
  have ⟨found, runs⟩ := running_eq_some lookup
  have ⟨unchanged, last⟩ := orderly taken found (providerId, outcome)
    (OrderedMap.get_eq_some.mp held)
  cases existing : controller.pending.get providerId with
  | some existing' =>
      have current := consistent.current providerId existing' existing
      rwa [unchanged existing' existing] at current
  | none =>
      have viewed : taken.brings providerId = some outcome.consecutiveFailures := by
        simp [Drain.brings, runs, held]
      refine (consistent.newest providerId existing).trans (getLast?_filterMap found viewed ?_)
      intro later member
      cases holds : later.snapshot.get providerId with
      | none => simp [Drain.brings, holds]
      | some value => simp [Drain.brings, last later member (by simp [holds])]

theorem Consistent.raises (consistent : controller.Consistent)
    (lookup : controller.running i = some taken)
    (orderly : OutcomeEvent.Orderly controller (.raises i)) :
    ({ controller.ended i taken .raised with
      pending := taken.snapshot.entries.foldl foldBack controller.pending
      } : AdmissionController α).Consistent where
  counted := by
    intro other kind
    have counted := consistent.counted other kind
    have left := @sum_delta_ended _ _ _ other kind _ _ lookup .raised nofun
    have back := @delta_foldl_foldBack _ _ other kind controller.pending taken.snapshot
    simp only [persisted, pendingDelta, reported, AdmissionController.ended] at counted left ⊢
    omega
  buffered := by
    intro other outcome buffered
    rw [Option.mem_def, get_foldl_foldBack] at buffered
    cases held : taken.snapshot.get other with
    | none =>
        rw [held] at buffered
        exact consistent.buffered other outcome buffered
    | some outcome' =>
        rw [held] at buffered
        cases buffered
        have found := (running_eq_some lookup).1
        exact reports_folded
          (consistent.drained taken (List.mem_of_getElem? found) other outcome' held)
  drained := drained_ended lookup consistent.drained
  current := by
    intro other outcome buffered
    rw [Option.mem_def, get_foldl_foldBack] at buffered
    cases held : taken.snapshot.get other with
    | none =>
        rw [held] at buffered
        exact consistent.current other outcome buffered
    | some outcome' =>
        rw [held] at buffered
        cases buffered
        rw [consecutiveFailures_folded]
        exact consistent.latest_raises lookup orderly held
  newest := by
    intro other none
    rw [get_foldl_foldBack] at none
    cases held : taken.snapshot.get other with
    | none =>
        rw [held] at none
        have same : Drain.brings other { taken with state := .raised } = taken.brings other := by
          simp [Drain.brings, held]
        rw [AdmissionController.ended, filterMap_set (running_eq_some lookup).1 same]
        exact consistent.newest other none
    | some outcome' =>
        rw [held] at none
        cases none
  stored := by
    intro other
    have ⟨found, runs⟩ := running_eq_some lookup
    have same : Drain.brought other { taken with state := .raised } = taken.brought other := by
      simp [Drain.brought, runs]
    rw [AdmissionController.ended, filterMap_set found same]
    exact consistent.stored other

theorem Consistent.step (consistent : controller.Consistent)
    (orderly : event.Orderly controller) (stepped : outcomeStep controller event = some next) :
    next.Consistent := by
  cases event with
  | success providerId =>
      cases stepped
      exact consistent.observed 0
  | failure providerId =>
      cases stepped
      exact consistent.observed _
  | latency providerId elapsedMs =>
      cases stepped
      simp only [recordLatency]
      split
      · exact consistent
      · exact ⟨consistent.counted, consistent.buffered, consistent.drained, consistent.current,
          consistent.newest, consistent.stored⟩
  | drain =>
      cases stepped
      exact consistent.drain
  | commits i =>
      obtain ⟨taken, lookup, rfl⟩ := Option.map_eq_some_iff.mp stepped
      exact consistent.commits lookup orderly
  | raises i =>
      obtain ⟨taken, lookup, rfl⟩ := Option.map_eq_some_iff.mp stepped
      exact consistent.raises lookup orderly
  | cancelled i => cases orderly

theorem Consistent.accounts (consistent : controller.Consistent) : controller.Accounts := by
  intro providerId
  refine ⟨consistent.counted providerId, ?_⟩
  intro ⟨unbuffered, drained⟩
  have alike : controller.drains.filterMap (Drain.brings providerId) =
      controller.drains.filterMap (Drain.brought providerId) := by
    refine List.filterMap_congr ?_
    intro drain member
    by_cases runs : drain.state = .running
    · simp [Drain.brings, Drain.brought, drained drain member runs]
    · simp [Drain.brings, Drain.brought, runs]
  rw [consistent.stored, consistent.newest providerId unbuffered, alike]

theorem consistent_start : ({} : AdmissionController α).Consistent where
  counted _ _ := rfl
  buffered _ _ none := by cases none
  drained _ none := by cases none
  current _ _ none := by cases none
  newest _ _ := rfl
  stored _ := rfl

/-- Orderly drains account for every report. -/
theorem run_orderly_accounts {events : List (OutcomeEvent α)}
    (orderly : Meets outcomeStep OutcomeEvent.Orderly {} events)
    (ran : run outcomeStep {} events = some controller) : controller.Accounts :=
  (run_invariant Consistent (fun _ _ _ consistent orderly stepped => consistent.step orderly stepped)
    consistent_start orderly ran).accounts

/-- A drain that raises before anything else is reported, and one that commits. -/
def retried : List (OutcomeEvent Nat) :=
  [.failure 0, .drain, .raises 0, .success 0, .failure 1, .drain, .commits 1]

theorem retried_accounts : ∃ last : AdmissionController Nat,
    run outcomeStep {} retried = some last ∧ last.rows.size = 2 ∧ last.Accounts := by
  have ended : (run outcomeStep {} retried).map (fun last => last.rows.size) = some 2 := by
    decide +kernel
  obtain ⟨last, ran, rows⟩ := Option.map_eq_some_iff.mp ended
  refine ⟨last, ran, rows, run_orderly_accounts ?_ ran⟩
  decide +kernel

instance : DecidablePred (NothingPending controller) := fun providerId =>
  inferInstanceAs (Decidable (controller.pending.get providerId = none ∧
    ∀ drain ∈ controller.drains, drain.state = .running → drain.snapshot.get providerId = none))

/-- A success is reported while a drain with an older failure waits: the drain raises, or
a second drain commits before it. -/
def outdatedDrains : List (List (OutcomeEvent Nat)) :=
  [[.failure 0, .drain, .success 0, .raises 0, .drain, .commits 1],
    [.failure 0, .drain, .success 0, .drain, .commits 1, .commits 0]]

def cancelledDrain : List (OutcomeEvent Nat) := [.failure 0, .drain, .cancelled 0]

theorem not_accounts : ¬ ∃ events ∈ cancelledDrain :: outdatedDrains, ∀ last,
    run outcomeStep {} events = some last → last.Accounts := by
  intro ⟨events, listed, accounts⟩
  rcases List.mem_cons.mp listed with rfl | outdated
  · have lost : (run outcomeStep {} cancelledDrain).map (fun last =>
        (last.persisted 0 false, last.pendingDelta 0 false, last.reported 0 false)) =
          some (0, 0, 1) := by decide +kernel
    obtain ⟨last, ran, values⟩ := Option.map_eq_some_iff.mp lost
    have counted := (accounts last ran 0).1 false
    grind
  · have stale : ∀ events ∈ outdatedDrains, (run outcomeStep {} events).map (fun last =>
        (decide (last.NothingPending 0), (last.rows.get 0).map (·.consecutiveFailures),
          last.consecutiveFailures.get 0)) = some (true, some 1, some 0) := by decide +kernel
    obtain ⟨last, ran, values⟩ := Option.map_eq_some_iff.mp (stale events outdated)
    have current := (accounts last ran 0).2
    grind

end AdmissionController

end Univiz.Insights
