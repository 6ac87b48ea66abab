import Univiz.Adapters.Circuit
import Univiz.Data.OrderedMap

namespace Univiz.Providers

open Univiz.Adapters Univiz.Data

/-! `ProviderManager` on stored data sources and providers.

No critical section of the breakers and of the state waits for anything, so a call
pauses only while it waits for the lock of its key, instantiates or closes a provider.
The locks, the breakers and the instances are objects with numbers, since a call may
use those that an eviction has dropped from the maps. -/

abbrev CacheKey := String × String

structure ProbeOutcome where
  ok : Bool
  reason : String
  observedAt : Rat
deriving DecidableEq

structure ProviderState where
  lastObservation : Option ProbeOutcome
  consecutiveFailures : Nat
deriving DecidableEq

/-- An observation of a failure that is at most a minute old. -/
def ProviderState.recentUnhealthy (state : ProviderState) (now : Rat) : Option ProbeOutcome :=
  state.lastObservation.filter fun observation =>
    !observation.ok && decide (now - observation.observedAt ≤ 60)

structure ProviderUnavailable where
  providerName : String
  reason : String
  retryAfterSeconds : Int
deriving DecidableEq, Repr

inductive Result where
  | provider (id : Nat)
  | unavailable (error : ProviderUnavailable)
  | keyError
deriving DecidableEq, Repr

inductive InstantiationOutcome where
  | success
  | failure (text : String)
  | timeout
deriving DecidableEq, Repr

/-- A call in progress, named by what it waits for, or one that has ended.  An eviction
goes on with the keys that are left, all of them or those that are still cached. -/
inductive Task where
  | waiting (key : CacheKey) (lock breaker : Nat)
  | instantiating (key : CacheKey) (lock breaker : Nat)
  | closing (key : CacheKey) (id : Nat) (rest : List CacheKey) (cachedOnly : Bool)
  | returned (result : Result)
  | done
deriving DecidableEq, Repr

def Task.inProgress : Task → Bool
  | .waiting .. | .instantiating .. | .closing .. => true
  | .returned _ | .done => false

structure Instance where
  key : CacheKey
  closed : Bool
deriving DecidableEq, Repr

structure ManagerConfig where
  breakerFailMax : Nat
  breakerResetTimeout : Nat
  preTripAfterN : Nat

structure ProviderManager where
  config : ManagerConfig
  now : Rat
  providers : OrderedMap CacheKey Nat
  locks : OrderedMap CacheKey Nat
  instantiationBreakers : OrderedMap CacheKey Nat
  providerStates : OrderedMap CacheKey ProviderState
  lockQueues : List (List Nat)
  breakers : List Breaker
  instances : List Instance
  tasks : List Task

/-- The state in which a reader sees a breaker. -/
def currentState (breaker : Breaker) (now : Rat) : BreakerState :=
  if breaker.state = .open ∧
      ∃ openedAt ∈ breaker.openedAt, (breaker.resetTimeout : Rat) ≤ now - openedAt then .halfOpen
  else breaker.state

namespace ProviderManager

def create (config : ManagerConfig) (now : Rat) : ProviderManager where
  config := config
  now := now
  providers := .empty
  locks := .empty
  instantiationBreakers := .empty
  providerStates := .empty
  lockQueues := []
  breakers := []
  instances := []
  tasks := []

variable (manager : ProviderManager)

def newBreaker : Breaker :=
  .create manager.config.breakerFailMax manager.config.breakerResetTimeout

def breaker (id : Nat) : Breaker := manager.breakers.getD id manager.newBreaker

def setBreaker (id : Nat) (breaker : Breaker) : ProviderManager :=
  { manager with breakers := manager.breakers.set id breaker }

def getInstantiationBreaker (key : CacheKey) : Nat × ProviderManager :=
  match manager.instantiationBreakers.get key with
  | some id => (id, manager)
  | none =>
      (manager.breakers.length,
        { manager with
          breakers := manager.breakers ++ [manager.newBreaker]
          instantiationBreakers := manager.instantiationBreakers.set key manager.breakers.length })

def recordSuccess (id : Nat) : ProviderManager :=
  manager.setBreaker id (manager.breaker id).recordSuccess

def recordFailure (id : Nat) : ProviderManager :=
  manager.setBreaker id ((manager.breaker id).recordFailure manager.now)

def getLock (key : CacheKey) : Nat × ProviderManager :=
  match manager.locks.get key with
  | some id => (id, manager)
  | none =>
      (manager.lockQueues.length,
        { manager with
          lockQueues := manager.lockQueues ++ [[]]
          locks := manager.locks.set key manager.lockQueues.length })

def queue (lock : Nat) : List Nat := manager.lockQueues.getD lock []

def enqueue (lock task : Nat) : ProviderManager :=
  { manager with lockQueues := manager.lockQueues.set lock (manager.queue lock ++ [task]) }

def release (lock : Nat) : ProviderManager :=
  { manager with lockQueues := manager.lockQueues.set lock (manager.queue lock).tail }

def spawn (task : Task) : ProviderManager := { manager with tasks := manager.tasks ++ [task] }

def setTask (id : Nat) (task : Task) : ProviderManager :=
  { manager with tasks := manager.tasks.set id task }

/-- `self._providers[cache_key]`. -/
def readProvider (key : CacheKey) : Result :=
  match manager.providers.get key with
  | some id => .provider id
  | none => .keyError

def providerName (key : CacheKey) : String := key.1 ++ ":" ++ key.2

/-- What a call does as soon as it holds the lock. -/
def locked (id : Nat) (key : CacheKey) (lock breaker : Nat) : ProviderManager :=
  if (manager.providers.get key).isSome then
    ((manager.recordSuccess breaker).release lock).setTask id (.returned (manager.readProvider key))
  else manager.setTask id (.instantiating key lock breaker)

/-- A call that has been admitted by the breaker asks for the lock. -/
def acquire (key : CacheKey) (breaker : Nat) : ProviderManager :=
  let (lock, manager) := manager.getLock key
  let id := manager.tasks.length
  let asked := (manager.spawn (.waiting key lock breaker)).enqueue lock id
  if (manager.queue lock).isEmpty then asked.locked id key lock breaker else asked

def getProvider (key : CacheKey) : ProviderManager :=
  match manager.providers.get key with
  | some id => manager.spawn (.returned (.provider id))
  | none =>
      match (manager.providerStates.get key).bind (·.recentUnhealthy manager.now) with
      | some observation =>
          manager.spawn (.returned (.unavailable {
            providerName := providerName key
            reason := "warmup observed unhealthy: " ++ observation.reason
            retryAfterSeconds := manager.config.breakerResetTimeout }))
      | none =>
          let (id, manager) := manager.getInstantiationBreaker key
          match (manager.breaker id).acquireCallSlot manager.now with
          | .error error =>
              manager.spawn (.returned (.unavailable {
                providerName := providerName key
                reason := "Provider instantiation circuit open — recent attempts failed"
                retryAfterSeconds := error.retryAfterSeconds }))
          | .ok breaker => (manager.setBreaker id breaker).acquire key id

def failed (id : Nat) (key : CacheKey) (lock breaker : Nat) (reason : String) : ProviderManager :=
  ((manager.recordFailure breaker).release lock).setTask id
    (.returned (.unavailable ⟨providerName key, reason, 30⟩))

/-- The provider is cached, and read from the cache after the lock has been released. -/
def cached (id : Nat) (key : CacheKey) (lock breaker : Nat) : ProviderManager :=
  let stored : ProviderManager := { manager with
    instances := manager.instances ++ [⟨key, false⟩]
    providers := manager.providers.set key manager.instances.length }
  let released := (stored.recordSuccess breaker).release lock
  released.setTask id (.returned (released.readProvider key))

def instantiated (id : Nat) (key : CacheKey) (lock breaker : Nat) :
    InstantiationOutcome → ProviderManager
  | .success => manager.cached id key lock breaker
  | .failure text => manager.failed id key lock breaker ("Instantiation failed: " ++ text)
  | .timeout => manager.failed id key lock breaker "Provider instantiation timed out"

/-- The end of `evict_data_source`. -/
def forget (key : CacheKey) : ProviderManager :=
  { manager with
    locks := manager.locks.erase key
    instantiationBreakers := manager.instantiationBreakers.erase key }

/-- Evicts the keys up to the first one whose provider has to be closed. -/
def evictFrom (cachedOnly : Bool) : List CacheKey → ProviderManager → ProviderManager × Task
  | [], manager => (manager, .done)
  | key :: rest, manager =>
      match manager.providers.get key with
      | some id =>
          ({ manager with providers := manager.providers.erase key },
            .closing key id rest cachedOnly)
      | none => evictFrom cachedOnly rest (if cachedOnly then manager else manager.forget key)

def evict (cachedOnly : Bool) (keys : List CacheKey) : ProviderManager :=
  let (evicted, task) := evictFrom cachedOnly keys manager
  evicted.spawn task

def closeInstance (id : Nat) : ProviderManager :=
  { manager with
    instances := manager.instances.modify id fun provider => { provider with closed := true } }

def closed (task : Nat) (key : CacheKey) (id : Nat) (rest : List CacheKey) (cachedOnly : Bool) :
    ProviderManager :=
  let (evicted, next) := evictFrom cachedOnly rest ((manager.closeInstance id).forget key)
  evicted.setTask task next

def keysOf (providerId : String) {β : Type} (map : OrderedMap CacheKey β) : List CacheKey :=
  (map.entries.map Prod.fst).filter fun key => key.1 = providerId

def resolveState (providerId : String) : List CacheKey :=
  match (keysOf providerId manager.providers ++ keysOf providerId manager.instantiationBreakers ++
      keysOf providerId manager.providerStates).eraseDups with
  | [] => [(providerId, "")]
  | keys => keys

def ensureState (key : CacheKey) : ProviderState :=
  (manager.providerStates.get key).getD ⟨none, 0⟩

def observedUnhealthy (key : CacheKey) : Bool :=
  match (manager.ensureState key).lastObservation with
  | some observation => !observation.ok
  | none => false

def setState (key : CacheKey) (state : ProviderState) : ProviderManager :=
  { manager with providerStates := manager.providerStates.set key state }

/-- Closes the instantiation breaker of a key, if there is one. -/
def closeBreaker (key : CacheKey) : ProviderManager :=
  match manager.instantiationBreakers.get key with
  | some id => manager.recordSuccess id
  | none => manager

def recordProbeSuccess (providerId : String) : ProviderManager :=
  let keys := manager.resolveState providerId
  let wasUnhealthy := keys.any manager.observedUnhealthy
  let healthy : ProviderState := ⟨some ⟨true, "ok", manager.now⟩, 0⟩
  let recorded := keys.foldl (fun manager key => manager.setState key healthy) manager
  let recovered := keys.foldl closeBreaker recorded
  recovered.evict true (if wasUnhealthy then keys else [])

/-- Opens the instantiation breaker of a key unless a reader sees it open. -/
def preTrip (key : CacheKey) : ProviderManager :=
  let (id, manager) := manager.getInstantiationBreaker key
  if currentState (manager.breaker id) manager.now = .open then manager
  else manager.setBreaker id ((manager.breaker id).trip manager.now)

def recordFailedProbe (reason : String) (key : CacheKey) : ProviderManager :=
  let failures := (manager.ensureState key).consecutiveFailures + 1
  let recorded := manager.setState key ⟨some ⟨false, reason, manager.now⟩, failures⟩
  if manager.config.preTripAfterN ≤ failures then recorded.preTrip key else recorded

def recordProbeFailure (providerId reason : String) : ProviderManager :=
  (manager.resolveState providerId).foldl
    (fun manager key => manager.recordFailedProbe reason key) manager

inductive Event where
  | getProvider (key : CacheKey)
  | resume (task : Nat)
  | instantiated (task : Nat) (outcome : InstantiationOutcome)
  | evictDataSource (key : CacheKey)
  | evictProvider (providerId : String)
  | evictAll
  | closed (task : Nat)
  | recordProbeSuccess (providerId : String)
  | recordProbeFailure (providerId reason : String)
  | elapse (duration : Rat)
deriving DecidableEq

def resume (id : Nat) : Task → Option ProviderManager
  | .waiting key lock breaker =>
      if (manager.queue lock).head? = some id then some (manager.locked id key lock breaker)
      else none
  | _ => none

def step : Event → Option ProviderManager
  | .getProvider key => some (manager.getProvider key)
  | .resume id => manager.tasks[id]?.bind (manager.resume id)
  | .instantiated id outcome =>
      match manager.tasks[id]? with
      | some (.instantiating key lock breaker) =>
          some (manager.instantiated id key lock breaker outcome)
      | _ => none
  | .evictDataSource key => some (manager.evict false [key])
  | .evictProvider providerId => some (manager.evict false (keysOf providerId manager.providers))
  | .evictAll => some (manager.evict false (manager.providers.entries.map Prod.fst))
  | .closed task =>
      match manager.tasks[task]? with
      | some (.closing key id rest cachedOnly) =>
          some (manager.closed task key id rest cachedOnly)
      | _ => none
  | .recordProbeSuccess providerId => some (manager.recordProbeSuccess providerId)
  | .recordProbeFailure providerId reason => some (manager.recordProbeFailure providerId reason)
  | .elapse duration =>
      if 0 ≤ duration then some { manager with now := manager.now + duration } else none

end ProviderManager

end Univiz.Providers
