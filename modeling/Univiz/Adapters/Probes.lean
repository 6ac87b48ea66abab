import Mathlib.Tactic.Linarith
import Univiz.Adapters.Circuit

namespace Univiz.Adapters

open Univiz.Data

namespace CircuitBreakerProxy

def probes (proxy : CircuitBreakerProxy) : List WrappedCall :=
  proxy.calls.filter fun call => call.probe && !call.finished

/-- No call starts within the window of an opening, there is one probe at a time, and
only the success of a probe closes the breaker. -/
structure Safe (proxy : CircuitBreakerProxy) : Prop where
  window : ∀ call ∈ proxy.calls, ∀ opening ∈ call.openings,
    opening + proxy.breaker.resetTimeout ≤ call.startedAt
  single : proxy.probes.length ≤ 1
  closings : ∀ call ∈ proxy.closings, call.probe = true

instance decidableSafe (proxy : CircuitBreakerProxy) : Decidable proxy.Safe :=
  decidable_of_iff
    ((∀ call ∈ proxy.calls, ∀ opening ∈ call.openings,
        opening + proxy.breaker.resetTimeout ≤ call.startedAt) ∧
      proxy.probes.length ≤ 1 ∧ ∀ call ∈ proxy.closings, call.probe = true)
    ⟨fun ⟨window, single, closings⟩ => ⟨window, single, closings⟩,
      fun safe => ⟨safe.window, safe.single, safe.closings⟩⟩

/-- A call that is let through outside the state CLOSED finds no probe in progress.  A
success is recorded in the state CLOSED, or it is that of a probe in the state
HALF_OPEN. -/
def Allowed (proxy : CircuitBreakerProxy) : Event → Prop
  | .call => proxy.breaker.state ≠ .closed →
      (proxy.breaker.acquireCallSlot proxy.now).isOk = true → proxy.probes = []
  | .complete id .success => proxy.breaker.state ≠ .closed →
      proxy.breaker.state = .halfOpen ∧ ∀ call, proxy.calls[id]? = some call → call.probe = true
  | .complete _ .failure | .complete _ .ignored | .trip | .elapse _ => True

/-- The windows of all openings are over unless the breaker is open, and then they are
over with the last one. -/
structure Guarded (proxy : CircuitBreakerProxy) : Prop where
  safe : proxy.Safe
  past : ∀ opening ∈ proxy.openings, opening ≤ proxy.now
  waited : proxy.breaker.state ≠ .open →
    ∀ opening ∈ proxy.openings, opening + proxy.breaker.resetTimeout ≤ proxy.now
  last : proxy.breaker.state = .open →
    ∃ openedAt ∈ proxy.openings, proxy.breaker.openedAt = some openedAt ∧
      ∀ opening ∈ proxy.openings, opening ≤ openedAt

variable {proxy next : CircuitBreakerProxy} {breaker : Breaker} {call : WrappedCall}

theorem create_guarded (failMax resetTimeout : Nat) (now : Rat) :
    (create failMax resetTimeout now).Guarded where
  safe := {
    window := fun _ member => nomatch member
    single := Nat.zero_le 1
    closings := fun _ member => nomatch member }
  past _ member := nomatch member
  waited _ _ member := nomatch member
  last opened := nomatch opened

theorem acquireCallSlot_ok {now : Rat} {after : Breaker}
    (acquired : breaker.acquireCallSlot now = .ok after) :
    breaker.state ≠ .open ∧ after = breaker ∨
      breaker.state = .open ∧ breaker.openedAt.getD now + breaker.resetTimeout ≤ now ∧
        after = { breaker with state := .halfOpen } := by
  unfold Breaker.acquireCallSlot at acquired
  split at acquired
  · rename_i opened
    simp only at acquired
    split at acquired
    · cases acquired
    · rename_i elapsed
      cases acquired
      refine .inr ⟨opened, ?_, rfl⟩
      linarith [not_lt.mp elapsed]
  · rename_i opened
    cases acquired
    exact .inl ⟨opened, rfl⟩

theorem Guarded.acquired {after : Breaker} (guarded : proxy.Guarded)
    (acquired : proxy.breaker.acquireCallSlot proxy.now = .ok after) :
    after.resetTimeout = proxy.breaker.resetTimeout ∧ after.state ≠ .open ∧
      ∀ opening ∈ proxy.openings, opening + proxy.breaker.resetTimeout ≤ proxy.now := by
  rcases acquireCallSlot_ok acquired with ⟨shut, rfl⟩ | ⟨opened, elapsed, rfl⟩
  · exact ⟨rfl, shut, guarded.waited shut⟩
  · obtain ⟨openedAt, -, recent, latest⟩ := guarded.last opened
    refine ⟨rfl, BreakerState.noConfusion, ?_⟩
    intro opening member
    rw [recent, Option.getD_some] at elapsed
    linarith [latest opening member]

theorem Guarded.started {after : Breaker} (guarded : proxy.Guarded)
    (alone : proxy.breaker.state ≠ .closed → proxy.probes = [])
    (acquired : proxy.breaker.acquireCallSlot proxy.now = .ok after) :
    (proxy.started after).Guarded := by
  obtain ⟨timeout, shut, elapsed⟩ := guarded.acquired acquired
  refine ⟨⟨?_, ?_, guarded.safe.closings⟩, guarded.past, ?_, fun opened => absurd opened shut⟩
  · intro call member opening earlier
    simp only [CircuitBreakerProxy.started, timeout]
    rcases List.mem_append.mp member with old | fresh
    · exact guarded.safe.window call old opening earlier
    · rw [List.mem_singleton.mp fresh] at earlier ⊢
      exact elapsed opening earlier
  · have single := guarded.safe.single
    unfold probes at single alone ⊢
    simp only [CircuitBreakerProxy.started, List.filter_append, List.length_append]
    by_cases closed : proxy.breaker.state = .closed
    · simpa [closed] using single
    · simp [alone closed, closed]
  · intro _ opening member
    simp only [CircuitBreakerProxy.started, timeout]
    exact elapsed opening member

theorem Guarded.finished {id : Nat} (guarded : proxy.Guarded) (found : proxy.calls[id]? = some call) :
    { proxy with calls := proxy.calls.set id { call with finished := true } }.Guarded where
  safe := {
    window := by
      intro other member
      rcases List.mem_or_eq_of_mem_set member with old | rfl
      · exact guarded.safe.window other old
      · exact guarded.safe.window call (List.mem_of_getElem? found)
    single := by
      apply Nat.le_trans _ guarded.safe.single
      apply length_filter_set_le found
      simp
    closings := guarded.safe.closings }
  past := guarded.past
  waited := guarded.waited
  last := guarded.last

theorem Guarded.opened (guarded : proxy.Guarded)
    (timeout : breaker.resetTimeout = proxy.breaker.resetTimeout)
    (opens : breaker.state = .open ∧ breaker.openedAt = some proxy.now ∨
      breaker.state = proxy.breaker.state ∧ breaker.openedAt = proxy.breaker.openedAt) :
    (proxy.opened breaker).Guarded := by
  have safe : (proxy.opened breaker).Safe := {
    window := by
      simp only [CircuitBreakerProxy.opened, timeout]
      exact guarded.safe.window
    single := guarded.safe.single
    closings := guarded.safe.closings }
  have recent : breaker.state = .open → ∃ openedAt, breaker.openedAt = some openedAt ∧
      openedAt ≤ proxy.now ∧ ∀ opening ∈ proxy.openings, opening ≤ openedAt := by
    intro opened
    rcases opens with ⟨-, recent⟩ | ⟨state, same⟩
    · exact ⟨proxy.now, recent, le_refl _, guarded.past⟩
    · obtain ⟨openedAt, member, recent, latest⟩ := guarded.last (state.symm.trans opened)
      exact ⟨openedAt, same.trans recent, guarded.past openedAt member, latest⟩
  by_cases opened : breaker.state = .open
  · obtain ⟨openedAt, recent, before, latest⟩ := recent opened
    have openings : (proxy.opened breaker).openings = proxy.openings ++ [openedAt] := by
      simp [CircuitBreakerProxy.opened, opened, recent]
    refine ⟨safe, ?_, fun shut => absurd opened shut, fun _ => ⟨openedAt, ?_, recent, ?_⟩⟩
    · intro opening member
      rw [openings] at member
      rcases List.mem_append.mp member with old | fresh
      · exact guarded.past opening old
      · rw [List.mem_singleton.mp fresh]
        exact before
    · rw [openings]
      exact List.mem_append_right _ (List.mem_singleton_self _)
    · intro opening member
      rw [openings] at member
      rcases List.mem_append.mp member with old | fresh
      · exact latest opening old
      · rw [List.mem_singleton.mp fresh]
  · have openings : (proxy.opened breaker).openings = proxy.openings := by
      simp [CircuitBreakerProxy.opened, opened]
    have shut : proxy.breaker.state ≠ .open := by
      rcases opens with ⟨opens, -⟩ | ⟨state, -⟩
      · exact absurd opens opened
      · rwa [← state]
    refine ⟨safe, ?_, fun _ => ?_, fun opens => absurd opens opened⟩
    · rw [openings]
      exact guarded.past
    · rw [openings]
      simp only [CircuitBreakerProxy.opened, timeout]
      exact guarded.waited shut

theorem Guarded.failed (guarded : proxy.Guarded) :
    (proxy.opened (proxy.breaker.recordFailure proxy.now)).Guarded := by
  unfold Breaker.recordFailure
  split
  · exact guarded.opened rfl (.inl ⟨rfl, rfl⟩)
  · simp only
    split
    · exact guarded.opened rfl (.inl ⟨rfl, rfl⟩)
    · exact guarded.opened rfl (.inr ⟨rfl, rfl⟩)

theorem Guarded.closed (guarded : proxy.Guarded)
    (probe : proxy.breaker.state ≠ .closed →
      proxy.breaker.state = .halfOpen ∧ call.probe = true) : (proxy.closed call).Guarded := by
  have shut : proxy.breaker.state ≠ .open := by
    intro opened
    have half := (probe (by simp [opened])).1
    cases opened.symm.trans half
  refine ⟨⟨guarded.safe.window, guarded.safe.single, ?_⟩, guarded.past,
    fun _ => guarded.waited shut, BreakerState.noConfusion⟩
  simp only [CircuitBreakerProxy.closed]
  split
  · exact guarded.safe.closings
  · rename_i tripped
    intro other member
    rcases List.mem_append.mp member with old | fresh
    · exact guarded.safe.closings other old
    · rw [List.mem_singleton.mp fresh]
      exact (probe tripped).2

theorem Guarded.elapse {duration : Rat} (guarded : proxy.Guarded) (forward : 0 ≤ duration) :
    { proxy with now := proxy.now + duration }.Guarded where
  safe := ⟨guarded.safe.window, guarded.safe.single, guarded.safe.closings⟩
  past opening member := by linarith [guarded.past opening member]
  waited shut opening member := by linarith [guarded.waited shut opening member]
  last := guarded.last

theorem step_guarded {event : Event} (guarded : proxy.Guarded) (allowed : proxy.Allowed event)
    (stepped : proxy.step event = some next) : next.Guarded := by
  cases event with
  | call =>
      simp only [step] at stepped
      split at stepped
      · cases stepped
        exact guarded
      · rename_i after acquired
        cases stepped
        apply guarded.started _ acquired
        intro tripped
        exact allowed tripped (by rw [acquired]; rfl)
  | complete id outcome =>
      obtain ⟨call, found, continued⟩ := Option.bind_eq_some_iff.mp stepped
      split at continued
      · cases continued
      · cases continued
        cases outcome with
        | success =>
            apply (guarded.finished found).closed
            intro tripped
            obtain ⟨half, probe⟩ := allowed tripped
            exact ⟨half, probe call found⟩
        | failure => exact (guarded.finished found).failed
        | ignored => exact guarded.finished found
  | trip =>
      cases stepped
      exact guarded.opened rfl (.inl ⟨rfl, rfl⟩)
  | elapse duration =>
      simp only [step] at stepped
      split at stepped
      · rename_i forward
        cases stepped
        exact guarded.elapse forward
      · cases stepped

/-- Runs of a new proxy whose events are all allowed keep it safe. -/
theorem calls_safe (failMax resetTimeout : Nat) (now : Rat) (events : List Event)
    (last : CircuitBreakerProxy) (meets : Meets step Allowed (create failMax resetTimeout now) events)
    (ran : run step (create failMax resetTimeout now) events = some last) : last.Safe := by
  have guarded : last.Guarded :=
    run_invariant Guarded (fun _ _ _ => step_guarded) (create_guarded failMax resetTimeout now)
      meets ran
  exact guarded.safe

instance decidableAllowed (proxy : CircuitBreakerProxy) :
    (event : Event) → Decidable (proxy.Allowed event)
  | .call => inferInstanceAs (Decidable (proxy.breaker.state ≠ .closed →
      (proxy.breaker.acquireCallSlot proxy.now).isOk = true → proxy.probes = []))
  | .complete id .success => inferInstanceAs (Decidable (proxy.breaker.state ≠ .closed →
      proxy.breaker.state = .halfOpen ∧ ∀ call, proxy.calls[id]? = some call → call.probe = true))
  | .complete _ .failure | .complete _ .ignored | .trip | .elapse _ => isTrue trivial

/-- A breaker that opens with its first failure, and its first probe. -/
def openedThenProbed : List Event :=
  [.call, .complete 0 .failure, .call, .elapse 30, .call]

/-- The first probe is cancelled, and the second one closes the breaker. -/
def closedByProbe : List Event :=
  openedThenProbed ++ [.complete 1 .ignored, .call, .complete 2 .success, .call]

theorem calls_safe_closedByProbe :
    ∃ last, run step (create 1 30 0) closedByProbe = some last ∧
      last.breaker.state = .closed ∧ last.calls.length = 4 ∧ last.Safe := by
  obtain ⟨last, ran, shape⟩ := Option.map_eq_some_iff.mp
    (show (run step (create 1 30 0) closedByProbe).map
      (fun last => (last.breaker.state, last.calls.length)) = some (.closed, 4) by decide +kernel)
  obtain ⟨closed, calls⟩ := Prod.mk.inj shape
  have safe : last.Safe := calls_safe 1 30 0 closedByProbe last (by decide +kernel) ran
  exact ⟨last, ran, closed, calls, safe⟩

def probedTwice : List Event := openedThenProbed ++ [.call]

/-- A call that has started before the breaker opened succeeds within the window. -/
def succeededLate : List Event :=
  [.call, .call, .complete 0 .failure, .complete 1 .success, .call]

/-- The same beside the probe. -/
def succeededBesideProbe : List Event :=
  [.call, .call, .complete 0 .failure, .elapse 30, .call, .complete 1 .success]

theorem unsafe_runs :
    ∀ events ∈ [probedTwice, succeededLate, succeededBesideProbe],
      (run step (create 1 30 0) events).map (fun last => decide last.Safe) = some false := by
  decide +kernel

theorem calls_not_safe :
    ¬ ∃ events ∈ [probedTwice, succeededLate, succeededBesideProbe],
      ∀ last, run step (create 1 30 0) events = some last → last.Safe := by
  intro ⟨events, member, always⟩
  obtain ⟨last, ran, broken⟩ := Option.map_eq_some_iff.mp (unsafe_runs events member)
  exact of_decide_eq_false broken (always last ran)

end CircuitBreakerProxy

end Univiz.Adapters
