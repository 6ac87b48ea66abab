import Univiz.Data.Transition
import Univiz.Providers.Manager

namespace Univiz.Providers

open Univiz.Data

/-! The background probes of the providers, and what they report to the manager.

The initial pass runs beside the loop.  What a probe writes into the cache and what it
reports are written without a wait in between, so they are one event. -/

/-- How the preflight of a provider ends, with the type and text of an exception. -/
inductive Preflight where
  | buildFailed (text : String)
  | notImplemented
  | wallClockExceeded
  | raised (text : String)
  | answered (ok : Bool) (reason : String)
deriving DecidableEq

structure WarmupEntry where
  ok : Bool
  reason : String
deriving DecidableEq

/-- `[:200]`. -/
def truncated (text : String) : String := String.ofList (text.toList.take 200)

/-- The entry that `_probe_one` returns. -/
def Preflight.entry : Preflight → WarmupEntry
  | .buildFailed text => ⟨false, truncated ("build_failed: " ++ text)⟩
  | .notImplemented => ⟨false, "preflight_not_implemented"⟩
  | .wallClockExceeded => ⟨false, "warmup_wall_clock_exceeded"⟩
  | .raised text => ⟨false, truncated ("preflight_error: " ++ text)⟩
  | .answered ok reason => ⟨ok, reason⟩

/-- The task of one provider in a pass.  It keeps the semaphore until the eviction that its
recovery has started is over. -/
inductive Probe where
  | queued
  | probing (prevOk : Option Bool)
  | reported (eviction : Option Nat)
  | finished
deriving DecidableEq

def Probe.holds : Probe → Bool
  | .probing _ | .reported _ => true
  | .queued | .finished => false

structure Pass where
  concurrency : Nat
  probes : List (String × Probe)

/-- Every provider that has an id gets a task. -/
def Pass.start (concurrency : Nat) (ids : List String) : Pass :=
  ⟨max 1 concurrency, (ids.filter (· ≠ "")).map fun id => (id, .queued)⟩

namespace Pass

variable (pass : Pass)

def setProbe (index : Nat) (provider : String) (probe : Probe) : Pass :=
  { pass with probes := pass.probes.set index (provider, probe) }

def providers : List String := pass.probes.map Prod.fst

def holders : Nat := pass.probes.countP fun task => task.2.holds

def finished : Bool := pass.probes.all fun task => task.2 = .finished

end Pass

inductive Prober where
  | initial
  | loop
deriving DecidableEq

structure WarmupConfig where
  warmupConcurrency : Nat
  initialFastPassConcurrency : Nat

structure Warmup where
  manager : ProviderManager
  warmupCache : OrderedMap String WarmupEntry
  shutdown : Bool
  initialListed : Bool
  initialPass : Option Pass
  cycle : Option Pass

/-- `managed` is anything that happens to the manager apart from the reports. -/
inductive WarmupEvent where
  | listed (prober : Prober) (ids : List String)
  | begins (prober : Prober)
  | ends (prober : Prober) (index : Nat) (preflight : Preflight)
  | released (prober : Prober) (index : Nat)
  | deadline
  | cycleEnds
  | shutdown
  | managed (event : ProviderManager.Event)
deriving DecidableEq

def ProviderManager.Event.reports : ProviderManager.Event → Bool
  | .recordProbeSuccess _ | .recordProbeFailure _ _ => true
  | _ => false

/-- The probe whose end the event is. -/
def WarmupEvent.ended : WarmupEvent → Option (Prober × Nat)
  | .ends prober index _ => some (prober, index)
  | _ => none

namespace Warmup

def start (config : ManagerConfig) (now : Rat) : Warmup :=
  ⟨.create config now, .empty, false, false, none, none⟩

variable (config : WarmupConfig) (warmup : Warmup)

def pass : Prober → Option Pass
  | .initial => warmup.initialPass
  | .loop => warmup.cycle

def setPass (pass : Pass) : Prober → Warmup
  | .initial => { warmup with initialPass := some pass }
  | .loop => { warmup with cycle := some pass }

/-- The providers as they are read at the start of a pass; their ids are keys of a table. -/
def listed (ids : List String) : Prober → Option Warmup
  | .initial =>
      if warmup.initialListed = true then none
      else
        let pass := Pass.start config.initialFastPassConcurrency ids
        some { warmup with
          initialListed := true
          initialPass := if ids = [] then none else some pass }
  | .loop =>
      if warmup.shutdown = true ∨ warmup.cycle.isSome = true then none
      else if ids = [] then some warmup
      else some { warmup with cycle := some (Pass.start config.warmupConcurrency ids) }

/-- A task gets the semaphore.  Only the tasks of the loop look at the shutdown. -/
def begins (prober : Prober) (pass : Pass) (index : Nat) (provider : String) : Warmup :=
  if prober = .loop ∧ warmup.shutdown = true then
    warmup.setPass (pass.setProbe index provider .finished) prober
  else
    let prevOk := (warmup.warmupCache.get provider).map WarmupEntry.ok
    warmup.setPass (pass.setProbe index provider (.probing prevOk)) prober

/-- The entry is cached and the manager told, with the eviction that this starts. -/
def report (provider : String) (prevOk : Option Bool) (entry : WarmupEntry) :
    Warmup × Option Nat :=
  let written := { warmup with warmupCache := warmup.warmupCache.set provider entry }
  if entry.ok = false then
    ({ written with
      manager := warmup.manager.recordProbeFailure provider (truncated entry.reason) }, none)
  else if prevOk = some false then
    ({ written with manager := warmup.manager.recordProbeSuccess provider },
      some warmup.manager.tasks.length)
  else (written, none)

def evictionOver (eviction : Option Nat) : Bool :=
  eviction.all fun task => warmup.manager.tasks[task]?.all fun task => !task.inProgress

def endCycle (pass : Pass) : Warmup :=
  let observed := warmup.warmupCache.restrict fun id => pass.providers.contains id
  { warmup with
    cycle := none
    warmupCache := if warmup.shutdown = true then warmup.warmupCache else observed }

def step : WarmupEvent → Option Warmup
  | .listed prober ids => if ids.Nodup then warmup.listed config ids prober else none
  | .begins prober => do
      let pass ← warmup.pass prober
      let index ← pass.probes.findIdx? fun task => task.2 = .queued
      let (provider, _) ← pass.probes[index]?
      if pass.holders < pass.concurrency then warmup.begins prober pass index provider else none
  | .ends prober index preflight => do
      let pass ← warmup.pass prober
      match pass.probes[index]? with
      | some (provider, .probing prevOk) =>
          let (reported, eviction) := warmup.report provider prevOk preflight.entry
          reported.setPass (pass.setProbe index provider (.reported eviction)) prober
      | _ => none
  | .released prober index => do
      let pass ← warmup.pass prober
      match pass.probes[index]? with
      | some (provider, .reported eviction) =>
          if warmup.evictionOver eviction = true then
            warmup.setPass (pass.setProbe index provider .finished) prober
          else none
      | _ => none
  | .deadline => some { warmup with initialListed := true, initialPass := none }
  | .cycleEnds => do
      let pass ← warmup.cycle
      if pass.finished = true then warmup.endCycle pass else none
  | .shutdown => some { warmup with shutdown := true }
  | .managed event =>
      if event.reports = true then none
      else (warmup.manager.step event).map fun manager => { warmup with manager }

end Warmup

def ProviderState.Observes (state : ProviderState) (ok : Bool) (reason : String) : Prop :=
  ∃ time, state.lastObservation = some ⟨ok, reason, time⟩

namespace ProviderManager

variable {manager next : ProviderManager} {key : CacheKey} {provider reason : String}

@[simp] theorem providerStates_setBreaker {id : Nat} {breaker : Univiz.Adapters.Breaker} :
    (manager.setBreaker id breaker).providerStates = manager.providerStates := rfl

@[simp] theorem providerStates_recordSuccess {id : Nat} :
    (manager.recordSuccess id).providerStates = manager.providerStates := rfl

@[simp] theorem providerStates_recordFailure {id : Nat} :
    (manager.recordFailure id).providerStates = manager.providerStates := rfl

@[simp] theorem providerStates_release {lock : Nat} :
    (manager.release lock).providerStates = manager.providerStates := rfl

@[simp] theorem providerStates_enqueue {lock task : Nat} :
    (manager.enqueue lock task).providerStates = manager.providerStates := rfl

@[simp] theorem providerStates_spawn {task : Task} :
    (manager.spawn task).providerStates = manager.providerStates := rfl

@[simp] theorem providerStates_setTask {id : Nat} {task : Task} :
    (manager.setTask id task).providerStates = manager.providerStates := rfl

@[simp] theorem providerStates_forget :
    (manager.forget key).providerStates = manager.providerStates := rfl

@[simp] theorem providerStates_getInstantiationBreaker :
    (manager.getInstantiationBreaker key).2.providerStates = manager.providerStates := by
  unfold getInstantiationBreaker
  split <;> rfl

@[simp] theorem providerStates_getLock :
    (manager.getLock key).2.providerStates = manager.providerStates := by
  unfold getLock
  split <;> rfl

@[simp] theorem providerStates_locked {id lock breaker : Nat} :
    (manager.locked id key lock breaker).providerStates = manager.providerStates := by
  unfold locked
  split <;> rfl

@[simp] theorem providerStates_acquire {breaker : Nat} :
    (manager.acquire key breaker).providerStates = manager.providerStates := by
  unfold acquire
  simp only
  split <;> simp

@[simp] theorem providerStates_getProvider :
    (manager.getProvider key).providerStates = manager.providerStates := by
  unfold getProvider
  split
  · rfl
  · split
    · rfl
    · simp only
      split <;> simp

@[simp] theorem providerStates_evictFrom {cachedOnly : Bool} {keys : List CacheKey} :
    (evictFrom cachedOnly keys manager).1.providerStates = manager.providerStates := by
  induction keys generalizing manager with
  | nil => rfl
  | cons key rest ih =>
      simp only [evictFrom]
      split
      · rfl
      · rw [ih]
        split <;> rfl

@[simp] theorem providerStates_evict {cachedOnly : Bool} {keys : List CacheKey} :
    (manager.evict cachedOnly keys).providerStates = manager.providerStates := by
  simp [evict]

@[simp] theorem providerStates_closed {task id : Nat} {rest : List CacheKey} {cachedOnly : Bool} :
    (manager.closed task key id rest cachedOnly).providerStates = manager.providerStates := by
  simp [closed, closeInstance]

@[simp] theorem providerStates_closeBreaker :
    (manager.closeBreaker key).providerStates = manager.providerStates := by
  unfold closeBreaker
  split <;> rfl

@[simp] theorem providerStates_preTrip :
    (manager.preTrip key).providerStates = manager.providerStates := by
  unfold preTrip
  simp only
  split <;> simp

/-- Only the reports write the states. -/
theorem step_providerStates {event : Event} (silent : event.reports = false)
    (stepped : manager.step event = some next) :
    next.providerStates = manager.providerStates := by
  cases event with
  | getProvider key =>
      cases stepped
      exact providerStates_getProvider
  | resume task =>
      obtain ⟨waiting, -, resumed⟩ := Option.bind_eq_some_iff.mp stepped
      simp only [resume] at resumed
      split at resumed
      · split at resumed
        · cases resumed
          exact providerStates_locked
        · cases resumed
      · cases resumed
  | instantiated task outcome =>
      simp only [step] at stepped
      split at stepped
      · cases stepped
        cases outcome with
        | success => rfl
        | failure text => rfl
        | timeout => rfl
      · cases stepped
  | evictDataSource key =>
      cases stepped
      exact providerStates_evict
  | evictProvider providerId =>
      cases stepped
      exact providerStates_evict
  | evictAll =>
      cases stepped
      exact providerStates_evict
  | closed task =>
      simp only [step] at stepped
      split at stepped
      · cases stepped
        exact providerStates_closed
      · cases stepped
  | recordProbeSuccess providerId => cases silent
  | recordProbeFailure providerId reason => cases silent
  | elapse duration =>
      simp only [step] at stepped
      split at stepped
      · cases stepped
        rfl
      · cases stepped

theorem mem_keysOf {β : Type} {map : OrderedMap CacheKey β} :
    key ∈ keysOf provider map ↔ key ∈ map.entries.map Prod.fst ∧ key.1 = provider := by
  rw [keysOf, List.mem_filter, decide_eq_true_iff]

theorem provider_of_mem_resolveState (member : key ∈ manager.resolveState provider) :
    key.1 = provider := by
  unfold resolveState at member
  split at member
  · rw [List.mem_singleton.mp member]
  · rw [List.mem_eraseDups, List.mem_append, List.mem_append] at member
    rcases member with (cached | tripped) | observed
    · exact (mem_keysOf.mp cached).2
    · exact (mem_keysOf.mp tripped).2
    · exact (mem_keysOf.mp observed).2

theorem exists_mem_resolveState : ∃ key, key ∈ manager.resolveState provider := by
  unfold resolveState
  split
  · exact ⟨_, List.mem_singleton_self _⟩
  · rename_i found
    exact List.exists_mem_of_ne_nil _ found

theorem mem_resolveState_of_get {state : ProviderState}
    (known : manager.providerStates.get key = some state) :
    key ∈ manager.resolveState key.1 := by
  have entry := OrderedMap.get_eq_some.mp known
  have member : key ∈ (keysOf key.1 manager.providers ++ keysOf key.1 manager.instantiationBreakers
      ++ keysOf key.1 manager.providerStates).eraseDups := by
    rw [List.mem_eraseDups]
    exact List.mem_append_right _ (mem_keysOf.mpr ⟨List.mem_map_of_mem entry, rfl⟩)
  unfold resolveState
  split
  · rename_i empty
    rw [empty] at member
    cases member
  · exact member

/-- What a report leaves behind: all the states of the provider have the observation. -/
structure Reported (before after : ProviderManager) (provider : String) (ok : Bool)
    (reason : String) : Prop where
  known : ∃ key state, key.1 = provider ∧ after.providerStates.get key = some state
  observed : ∀ key state, key.1 = provider → after.providerStates.get key = some state →
    state.Observes ok reason
  others : ∀ key, key.1 ≠ provider → after.providerStates.get key = before.providerStates.get key

/-- One key after the other gets a state with the observation. -/
theorem get_foldl_states {ok : Bool} {change : ProviderManager → CacheKey → ProviderManager}
    (changed : ∀ manager key, ∃ state : ProviderState, state.Observes ok reason ∧
      (change manager key).providerStates = manager.providerStates.set key state)
    (keys : List CacheKey) :
    (key ∈ keys → ∃ state : ProviderState, state.Observes ok reason ∧
      (keys.foldl change manager).providerStates.get key = some state) ∧
    (key ∉ keys → (keys.foldl change manager).providerStates.get key =
      manager.providerStates.get key) := by
  induction keys generalizing manager with
  | nil => exact ⟨fun member => (by cases member), fun _ => rfl⟩
  | cons first rest ih =>
      obtain ⟨state, observes, written⟩ := changed manager first
      obtain ⟨later, kept⟩ := @ih (change manager first)
      rw [List.foldl_cons]
      refine ⟨?_, ?_⟩
      · intro member
        by_cases again : key ∈ rest
        · exact later again
        · obtain rfl : key = first := (List.mem_cons.mp member).resolve_right again
          refine ⟨state, observes, ?_⟩
          rw [kept again, written, OrderedMap.get_set, if_pos rfl]
      · intro other
        obtain ⟨apart, other⟩ := List.ne_and_not_mem_of_not_mem_cons other
        rw [kept other, written, OrderedMap.get_set, if_neg (Ne.symm apart)]

theorem reported_foldl {ok : Bool} {change : ProviderManager → CacheKey → ProviderManager}
    (changed : ∀ manager key, ∃ state : ProviderState, state.Observes ok reason ∧
      (change manager key).providerStates = manager.providerStates.set key state) :
    Reported manager ((manager.resolveState provider).foldl change manager) provider ok
      reason where
  known := by
    obtain ⟨key, member⟩ := @exists_mem_resolveState manager provider
    obtain ⟨state, -, got⟩ := (get_foldl_states changed _).1 member
    exact ⟨key, state, provider_of_mem_resolveState member, got⟩
  observed := by
    rintro key state rfl got
    by_cases member : key ∈ manager.resolveState key.1
    · obtain ⟨written, observes, stored⟩ := (@get_foldl_states manager key _ _ _ changed _).1 member
      obtain rfl := Option.some.inj (got.symm.trans stored)
      exact observes
    · have kept := (@get_foldl_states manager key _ _ _ changed _).2 member
      exact absurd (mem_resolveState_of_get (kept ▸ got)) member
  others := by
    intro key apart
    exact (get_foldl_states changed _).2 fun member => apart (provider_of_mem_resolveState member)

theorem reported_recordProbeFailure :
    Reported manager (manager.recordProbeFailure provider reason) provider false reason := by
  refine reported_foldl ?_
  intro manager key
  refine ⟨⟨some ⟨false, reason, manager.now⟩, (manager.ensureState key).consecutiveFailures + 1⟩,
    ⟨manager.now, rfl⟩, ?_⟩
  unfold recordFailedProbe
  simp only
  split
  · rw [providerStates_preTrip]
    rfl
  · rfl

theorem reported_recordProbeSuccess :
    Reported manager (manager.recordProbeSuccess provider) provider true "ok" := by
  have closed : ∀ (keys : List CacheKey) (manager : ProviderManager),
      (keys.foldl closeBreaker manager).providerStates = manager.providerStates := by
    intro keys
    induction keys with
    | nil => exact fun _ => rfl
    | cons key rest ih =>
        intro manager
        rw [List.foldl_cons, ih, providerStates_closeBreaker]
  have recorded : Reported manager ((manager.resolveState provider).foldl (fun recorded key =>
      recorded.setState key ⟨some ⟨true, "ok", manager.now⟩, 0⟩) manager) provider true "ok" :=
    reported_foldl fun _ key => ⟨_, ⟨manager.now, rfl⟩, rfl⟩
  have same : (manager.recordProbeSuccess provider).providerStates =
      ((manager.resolveState provider).foldl (fun recorded key =>
        recorded.setState key ⟨some ⟨true, "ok", manager.now⟩, 0⟩) manager).providerStates := by
    rw [recordProbeSuccess, providerStates_evict, closed]
  exact ⟨same ▸ recorded.known, same ▸ recorded.observed, same ▸ recorded.others⟩

end ProviderManager

end Univiz.Providers
