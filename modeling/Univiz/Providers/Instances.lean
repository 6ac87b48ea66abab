import Univiz.Data.Transition
import Univiz.Providers.Manager

namespace Univiz.Providers

open Univiz.Adapters Univiz.Data

/-! What becomes of the provider instances that are created. -/

def Task.closes : Task → Option Nat
  | .closing _ id _ _ => some id
  | _ => none

namespace ProviderManager

variable {manager before middle after next : ProviderManager} {event : Event} {key : CacheKey}
  {id task lock breaker : Nat} {old new : Task}

def Closing (manager : ProviderManager) (id : Nat) : Prop :=
  ∃ task ∈ manager.tasks, task.closes = some id

/-- What a step that neither caches nor evicts a provider keeps. -/
structure Quiet (before after : ProviderManager) : Prop where
  providers : after.providers = before.providers
  instances : after.instances = before.instances
  closing : ∀ id, after.Closing id ↔ before.Closing id
  errors : .returned .keyError ∈ after.tasks → .returned .keyError ∈ before.tasks

theorem Quiet.of_eq (providers : after.providers = before.providers)
    (instances : after.instances = before.instances) (tasks : after.tasks = before.tasks) :
    Quiet before after where
  providers := providers
  instances := instances
  closing id := by simp only [Closing, tasks]
  errors := by simp only [tasks, imp_self]

theorem Quiet.trans (first : Quiet before middle) (second : Quiet middle after) :
    Quiet before after where
  providers := second.providers.trans first.providers
  instances := second.instances.trans first.instances
  closing id := (second.closing id).trans (first.closing id)
  errors error := first.errors (second.errors error)

theorem closing_spawn : (manager.spawn new).Closing id ↔
    manager.Closing id ∨ new.closes = some id := by
  simp only [Closing, spawn, List.mem_append, List.mem_singleton]
  refine ⟨?_, ?_⟩
  · rintro ⟨task, old | rfl, closes⟩
    · exact .inl ⟨task, old, closes⟩
    · exact .inr closes
  · rintro (⟨task, old, closes⟩ | closes)
    · exact ⟨task, .inl old, closes⟩
    · exact ⟨new, .inr rfl, closes⟩

theorem closing_setTask (closing : (manager.setTask task new).Closing id) :
    manager.Closing id ∨ new.closes = some id := by
  obtain ⟨other, member, closes⟩ := closing
  rcases List.mem_or_eq_of_mem_set member with kept | rfl
  · exact .inl ⟨other, kept, closes⟩
  · exact .inr closes

theorem closing_of_setTask (found : manager.tasks[task]? = some old)
    (closing : manager.Closing id) :
    (manager.setTask task new).Closing id ∨ old.closes = some id := by
  obtain ⟨other, member, closes⟩ := closing
  obtain ⟨place, lookup⟩ := List.mem_iff_getElem?.mp member
  by_cases same : task = place
  · subst same
    cases found.symm.trans lookup
    exact .inr closes
  · have kept : (manager.tasks.set task new)[place]? = some other := by
      rw [List.getElem?_set_ne same, lookup]
    exact .inl ⟨other, List.mem_of_getElem? kept, closes⟩

theorem setTask_closing (found : manager.tasks[task]? = some old) (closes : new.closes = some id) :
    (manager.setTask task new).Closing id :=
  ⟨new, List.mem_set (List.getElem?_eq_some_iff.mp found).1 new, closes⟩

theorem Quiet.spawn (quiet : new.closes = none) (sound : new ≠ .returned .keyError) :
    Quiet manager (manager.spawn new) where
  providers := rfl
  instances := rfl
  closing id := by simp [closing_spawn, quiet]
  errors error := by
    rcases List.mem_append.mp error with old | fresh
    · exact old
    · exact absurd (List.mem_singleton.mp fresh).symm sound

theorem Quiet.setTask (found : manager.tasks[task]? = some old) (still : old.closes = none)
    (quiet : new.closes = none) (sound : new ≠ .returned .keyError) :
    Quiet manager (manager.setTask task new) where
  providers := rfl
  instances := rfl
  closing id := by
    refine ⟨?_, ?_⟩
    · intro closing
      have before := closing_setTask closing
      simpa [quiet] using before
    · intro closing
      have after : (manager.setTask task new).Closing id ∨ old.closes = some id :=
        closing_of_setTask found closing
      simpa [still] using after
  errors error := by
    rcases List.mem_or_eq_of_mem_set error with kept | fresh
    · exact kept
    · exact absurd fresh.symm sound

theorem quiet_recordSuccess : Quiet manager (manager.recordSuccess breaker) :=
  .of_eq rfl rfl rfl

theorem quiet_recordFailure : Quiet manager (manager.recordFailure breaker) :=
  .of_eq rfl rfl rfl

theorem quiet_release : Quiet manager (manager.release lock) :=
  .of_eq rfl rfl rfl

theorem quiet_enqueue : Quiet manager (manager.enqueue lock task) :=
  .of_eq rfl rfl rfl

theorem quiet_setBreaker {updated : Breaker} : Quiet manager (manager.setBreaker id updated) :=
  .of_eq rfl rfl rfl

theorem quiet_setState {state : ProviderState} : Quiet manager (manager.setState key state) :=
  .of_eq rfl rfl rfl

theorem quiet_forget : Quiet manager (manager.forget key) :=
  .of_eq rfl rfl rfl

theorem quiet_getInstantiationBreaker :
    Quiet manager (manager.getInstantiationBreaker key).2 := by
  simp only [getInstantiationBreaker]
  split <;> exact .of_eq rfl rfl rfl

theorem quiet_getLock : Quiet manager (manager.getLock key).2 := by
  simp only [getLock]
  split <;> exact .of_eq rfl rfl rfl

theorem quiet_closeBreaker : Quiet manager (manager.closeBreaker key) := by
  simp only [closeBreaker]
  split
  · exact quiet_recordSuccess
  · exact .of_eq rfl rfl rfl

theorem quiet_preTrip : Quiet manager (manager.preTrip key) := by
  unfold preTrip
  simp only
  split
  · exact quiet_getInstantiationBreaker
  · exact quiet_getInstantiationBreaker.trans quiet_setBreaker

theorem quiet_recordFailedProbe {reason : String} :
    Quiet manager (manager.recordFailedProbe reason key) := by
  unfold recordFailedProbe
  simp only
  split
  · exact quiet_setState.trans quiet_preTrip
  · exact quiet_setState

theorem quiet_foldl {change : ProviderManager → CacheKey → ProviderManager}
    (quiet : ∀ manager key, Quiet manager (change manager key)) (keys : List CacheKey) :
    Quiet manager (keys.foldl change manager) := by
  induction keys generalizing manager with
  | nil => exact .of_eq rfl rfl rfl
  | cons key rest ih => exact (quiet manager key).trans ih

theorem quiet_locked (found : manager.tasks[task]? = some (.waiting key lock breaker)) :
    Quiet manager (manager.locked task key lock breaker) := by
  simp only [locked]
  split
  · rename_i cached
    obtain ⟨id, provider⟩ := Option.isSome_iff_exists.mp cached
    have read : manager.readProvider key = .provider id := by
      simp only [readProvider, provider]
    rw [read]
    have released : Quiet manager ((manager.recordSuccess breaker).release lock) :=
      quiet_recordSuccess.trans quiet_release
    exact released.trans (.setTask found rfl rfl fun returned => by cases returned)
  · exact .setTask found rfl rfl fun returned => by cases returned

theorem quiet_acquire : Quiet manager (manager.acquire key breaker) := by
  unfold acquire
  simp only
  have waiting : Quiet manager ((manager.getLock key).2.spawn
      (.waiting key (manager.getLock key).1 breaker)) :=
    quiet_getLock.trans (.spawn rfl nofun)
  have asked : Quiet manager (((manager.getLock key).2.spawn
      (.waiting key (manager.getLock key).1 breaker)).enqueue (manager.getLock key).1
        (manager.getLock key).2.tasks.length) := waiting.trans quiet_enqueue
  split
  · exact asked.trans (quiet_locked (by simp [enqueue, spawn]))
  · exact asked

theorem quiet_getProvider : Quiet manager (manager.getProvider key) := by
  unfold getProvider
  split
  · exact .spawn rfl nofun
  · split
    · exact .spawn rfl nofun
    · simp only
      split
      · exact quiet_getInstantiationBreaker.trans (.spawn rfl nofun)
      · exact (quiet_getInstantiationBreaker.trans quiet_setBreaker).trans quiet_acquire

theorem quiet_failed {reason : String}
    (found : manager.tasks[task]? = some (.instantiating key lock breaker)) :
    Quiet manager (manager.failed task key lock breaker reason) :=
  (quiet_recordFailure.trans quiet_release).trans (.setTask found rfl rfl nofun)

/-- A provider that was created is cached, has been closed or is being closed. -/
def Accounted (manager : ProviderManager) : Prop :=
  ∀ id provider, manager.instances[id]? = some provider →
    provider.closed = true ∨ manager.providers.get provider.key = some id ∨ manager.Closing id

def Idle (manager : ProviderManager) : Prop := ∀ task ∈ manager.tasks, task.inProgress = false

/-- A provider that was created is cached for its key, has been closed or is being closed
by an eviction in progress; so without a call in progress it is cached or has been closed,
and only one of a key is live.  No call has ended with a `KeyError`. -/
structure Sound (manager : ProviderManager) : Prop where
  accounted : manager.Accounted
  settled : manager.Idle → ∀ id provider, manager.instances[id]? = some provider →
    provider.closed = true ∨ manager.providers.get provider.key = some id
  single : manager.Idle → ∀ (id other : Nat) (provider rival : Instance),
    manager.instances[id]? = some provider → manager.instances[other]? = some rival →
      provider.closed = false → rival.closed = false → provider.key = rival.key → id = other
  errors : .returned .keyError ∉ manager.tasks

/-- An instantiation that succeeds finds no provider cached for its key. -/
def Unoccupied (manager : ProviderManager) : Event → Prop
  | .instantiated task .success =>
      match manager.tasks[task]? with
      | some (.instantiating key _ _) => manager.providers.get key = none
      | _ => True
  | _ => True

/-- The cache holds live providers of their keys, and those being closed are not cached. -/
structure Tracked (manager : ProviderManager) : Prop where
  cached : ∀ key id, manager.providers.get key = some id →
    ∃ provider, manager.instances[id]? = some provider ∧ provider.key = key ∧
      provider.closed = false
  taken : ∀ id, manager.Closing id → id < manager.instances.length ∧
    ∀ key, manager.providers.get key ≠ some id
  errors : .returned .keyError ∉ manager.tasks

theorem Accounted.settled (accounted : manager.Accounted) (idle : manager.Idle)
    {provider : Instance} (created : manager.instances[id]? = some provider) :
    provider.closed = true ∨ manager.providers.get provider.key = some id := by
  rcases accounted id provider created with closed | cached | closing
  · exact .inl closed
  · exact .inr cached
  · obtain ⟨task, member, closes⟩ := closing
    have ended := idle task member
    cases task with
    | closing key other rest cachedOnly => cases ended
    | waiting key lock breaker => cases closes
    | instantiating key lock breaker => cases closes
    | returned result => cases closes
    | done => cases closes

theorem sound_iff (tracked : manager.Tracked) : manager.Sound ↔ manager.Accounted := by
  refine ⟨fun sound => sound.accounted, ?_⟩
  intro accounted
  refine ⟨accounted, fun idle id provider => accounted.settled idle, ?_, tracked.errors⟩
  intro idle id other provider rival created created' live live' same
  rcases accounted.settled idle created with closed | cached
  · rw [live] at closed
    cases closed
  · rcases accounted.settled idle created' with closed | cached'
    · rw [live'] at closed
      cases closed
    · rw [same, cached'] at cached
      exact (Option.some.inj cached).symm

theorem Quiet.tracked (quiet : Quiet before after) (tracked : before.Tracked) : after.Tracked where
  cached key id cached := by
    rw [quiet.providers] at cached
    rw [quiet.instances]
    exact tracked.cached key id cached
  taken id closing := by
    rw [quiet.providers, quiet.instances]
    exact tracked.taken id ((quiet.closing id).mp closing)
  errors error := tracked.errors (quiet.errors error)

theorem Quiet.accounted (quiet : Quiet before after) (accounted : before.Accounted) :
    after.Accounted := by
  intro id provider created
  rw [quiet.instances] at created
  rw [quiet.providers, quiet.closing]
  exact accounted id provider created

/-- What an eviction that goes on with a new task does to the cache and the calls. -/
structure Evicts (before after : ProviderManager) (new : Task) : Prop where
  instances : after.instances = before.instances
  providers : after.providers = before.providers ∧ new.closes = none ∨
    ∃ key id, before.providers.get key = some id ∧
      after.providers = before.providers.erase key ∧ new.closes = some id
  adds : ∀ id, after.Closing id → before.Closing id ∨ new.closes = some id
  starts : ∀ id, new.closes = some id → after.Closing id
  keeps : ∀ id, before.Closing id → after.Closing id ∨
    ∃ provider, before.instances[id]? = some provider ∧ provider.closed = true
  errors : .returned .keyError ∈ after.tasks → .returned .keyError ∈ before.tasks

theorem Evicts.get (evicts : Evicts before after new) (cached : after.providers.get key = some id) :
    before.providers.get key = some id := by
  rcases evicts.providers with ⟨same, -⟩ | ⟨taken, -, -, erased, -⟩
  · rwa [same] at cached
  · rw [erased, OrderedMap.get_erase] at cached
    split at cached
    · cases cached
    · exact cached

theorem Tracked.key_eq {other : CacheKey} (tracked : manager.Tracked)
    (cached : manager.providers.get key = some id)
    (cached' : manager.providers.get other = some id) : key = other := by
  obtain ⟨provider, created, named, -⟩ := tracked.cached key id cached
  obtain ⟨rival, created', named', -⟩ := tracked.cached other id cached'
  cases created.symm.trans created'
  exact named.symm.trans named'

theorem Evicts.tracked (evicts : Evicts before after new) (tracked : before.Tracked) :
    after.Tracked where
  cached key id cached := by
    rw [evicts.instances]
    exact tracked.cached key id (evicts.get cached)
  taken id closing := by
    rw [evicts.instances]
    rcases evicts.adds id closing with already | fresh
    · obtain ⟨known, uncached⟩ := tracked.taken id already
      exact ⟨known, fun key cached => uncached key (evicts.get cached)⟩
    · rcases evicts.providers with ⟨-, none⟩ | ⟨key, other, cached, erased, closes⟩
      · rw [none] at fresh
        cases fresh
      · cases closes.symm.trans fresh
        obtain ⟨provider, created, -⟩ := tracked.cached key id cached
        refine ⟨(List.getElem?_eq_some_iff.mp created).1, ?_⟩
        intro other still
        rw [erased, OrderedMap.get_erase] at still
        split at still
        · cases still
        · rename_i apart
          exact apart (tracked.key_eq cached still)
  errors error := tracked.errors (evicts.errors error)

theorem Evicts.accounted (evicts : Evicts before after new) (accounted : before.Accounted) :
    after.Accounted := by
  intro id provider created
  rw [evicts.instances] at created
  rcases accounted id provider created with closed | cached | closing
  · exact .inl closed
  · rcases evicts.providers with ⟨same, -⟩ | ⟨key, other, taken, erased, closes⟩
    · exact .inr (.inl (same ▸ cached))
    · by_cases here : key = provider.key
      · subst here
        cases taken.symm.trans cached
        exact .inr (.inr (evicts.starts id closes))
      · rw [erased, OrderedMap.get_erase, if_neg here]
        exact .inr (.inl cached)
  · rcases evicts.keeps id closing with still | ⟨rival, found, closed⟩
    · exact .inr (.inr still)
    · cases created.symm.trans found
      exact .inl closed

/-- An eviction stops at the first key whose provider it takes out of the cache. -/
theorem evictFrom_cases (cachedOnly : Bool) (keys : List CacheKey) (manager : ProviderManager) :
    (evictFrom cachedOnly keys manager).1.tasks = manager.tasks ∧
      (evictFrom cachedOnly keys manager).1.instances = manager.instances ∧
      (evictFrom cachedOnly keys manager).2 ≠ .returned .keyError ∧
      ((evictFrom cachedOnly keys manager).1.providers = manager.providers ∧
          (evictFrom cachedOnly keys manager).2.closes = none ∨
        ∃ key id, manager.providers.get key = some id ∧
          (evictFrom cachedOnly keys manager).1.providers = manager.providers.erase key ∧
          (evictFrom cachedOnly keys manager).2.closes = some id) := by
  induction keys generalizing manager with
  | nil => exact ⟨rfl, rfl, nofun, .inl ⟨rfl, rfl⟩⟩
  | cons key rest ih =>
      simp only [evictFrom]
      split
      · rename_i id cached
        exact ⟨rfl, rfl, nofun, .inr ⟨key, id, cached, rfl, rfl⟩⟩
      · split
        · exact ih manager
        · exact ih (manager.forget key)

theorem evicts_evict (cachedOnly : Bool) (keys : List CacheKey) :
    Evicts manager (manager.evict cachedOnly keys) (evictFrom cachedOnly keys manager).2 := by
  obtain ⟨tasks, instances, sound, providers⟩ := evictFrom_cases cachedOnly keys manager
  have same : ∀ id, (evictFrom cachedOnly keys manager).1.Closing id ↔ manager.Closing id := by
    intro id
    rw [Closing, Closing, tasks]
  refine ⟨instances, providers, ?_, ?_, ?_, ?_⟩
  · intro id closing
    rcases closing_spawn.mp closing with old | fresh
    · exact .inl ((same id).mp old)
    · exact .inr fresh
  · intro id closes
    exact closing_spawn.mpr (.inr closes)
  · intro id closing
    exact .inl (closing_spawn.mpr (.inl ((same id).mpr closing)))
  · intro error
    rcases List.mem_append.mp error with old | fresh
    · rwa [tasks] at old
    · exact absurd (List.mem_singleton.mp fresh).symm sound

theorem Tracked.closeInstance (tracked : manager.Tracked) (closing : manager.Closing id) :
    (manager.closeInstance id).Tracked where
  cached key other cached := by
    obtain ⟨provider, created, named, live⟩ := tracked.cached key other cached
    have apart : id ≠ other := by
      rintro rfl
      exact (tracked.taken id closing).2 key cached
    refine ⟨provider, ?_, named, live⟩
    simp [ProviderManager.closeInstance, apart, created]
  taken other closing := by
    simp only [ProviderManager.closeInstance, List.length_modify]
    exact tracked.taken other closing
  errors := tracked.errors

theorem Accounted.closeInstance (accounted : manager.Accounted) :
    (manager.closeInstance id).Accounted := by
  intro other provider created
  simp only [ProviderManager.closeInstance, List.getElem?_modify] at created
  obtain ⟨before, found, rfl⟩ := Option.map_eq_some_iff.mp created
  by_cases same : id = other
  · simp [same]
  · rw [if_neg same]
    exact accounted other before found

theorem evicts_closed {rest : List CacheKey} {cachedOnly : Bool}
    (found : manager.tasks[task]? = some (.closing key id rest cachedOnly))
    (known : id < manager.instances.length) :
    Evicts ((manager.closeInstance id).forget key) (manager.closed task key id rest cachedOnly)
      (evictFrom cachedOnly rest ((manager.closeInstance id).forget key)).2 := by
  obtain ⟨tasks, instances, sound, providers⟩ :=
    evictFrom_cases cachedOnly rest ((manager.closeInstance id).forget key)
  have found' : (evictFrom cachedOnly rest ((manager.closeInstance id).forget key)).1.tasks[task]? =
      some (.closing key id rest cachedOnly) := by
    rw [tasks]
    exact found
  have same : ∀ other,
      (evictFrom cachedOnly rest ((manager.closeInstance id).forget key)).1.Closing other ↔
        ((manager.closeInstance id).forget key).Closing other := by
    intro other
    rw [Closing, Closing, tasks]
  refine ⟨instances, providers, ?_, ?_, ?_, ?_⟩
  · intro other closing
    rcases closing_setTask closing with old | fresh
    · exact .inl ((same other).mp old)
    · exact .inr fresh
  · intro other closes
    exact setTask_closing found' closes
  · intro other closing
    rcases closing_of_setTask found' ((same other).mpr closing) with still | ended
    · exact .inl still
    · cases ended
      refine .inr ⟨{ manager.instances[id] with closed := true }, ?_, rfl⟩
      simp [forget, closeInstance, known]
  · intro error
    rcases List.mem_or_eq_of_mem_set error with kept | fresh
    · rwa [tasks] at kept
    · exact absurd fresh.symm sound

theorem readProvider_cached : (manager.cached task key lock breaker).tasks =
    manager.tasks.set task (.returned (.provider manager.instances.length)) := by
  have read : ({ manager with
      instances := manager.instances ++ [⟨key, false⟩]
      providers := manager.providers.set key manager.instances.length } :
        ProviderManager).readProvider key = .provider manager.instances.length := by
    simp only [readProvider, OrderedMap.get_set, if_pos]
  rw [← read]
  rfl

theorem get_cached {other : CacheKey} :
    (manager.cached task key lock breaker).providers.get other =
      if key = other then some manager.instances.length else manager.providers.get other :=
  OrderedMap.get_set

theorem instances_cached : (manager.cached task key lock breaker).instances =
    manager.instances ++ [⟨key, false⟩] := rfl

theorem closing_cached (found : manager.tasks[task]? = some (.instantiating key lock breaker)) :
    (manager.cached task key lock breaker).Closing id ↔ manager.Closing id := by
  have quiet : Quiet manager
      (manager.setTask task (.returned (.provider manager.instances.length))) :=
    .setTask found rfl rfl nofun
  rw [← quiet.closing id, Closing, Closing, readProvider_cached]
  rfl

theorem Tracked.cache (tracked : manager.Tracked)
    (found : manager.tasks[task]? = some (.instantiating key lock breaker)) :
    (manager.cached task key lock breaker).Tracked where
  cached other id cached := by
    rw [instances_cached]
    rw [get_cached] at cached
    split at cached
    · rename_i same
      cases cached
      exact ⟨⟨key, false⟩, by simp, same, rfl⟩
    · obtain ⟨provider, created, rest⟩ := tracked.cached other id cached
      have known := (List.getElem?_eq_some_iff.mp created).1
      exact ⟨provider, by rw [List.getElem?_append_left known, created], rest⟩
  taken id closing := by
    obtain ⟨known, uncached⟩ := tracked.taken id ((closing_cached found).mp closing)
    refine ⟨?_, ?_⟩
    · rw [instances_cached, List.length_append]
      omega
    · intro other cached
      rw [get_cached] at cached
      split at cached
      · cases cached
        omega
      · exact uncached other cached
  errors error := by
    rw [readProvider_cached] at error
    rcases List.mem_or_eq_of_mem_set error with old | fresh
    · exact tracked.errors old
    · cases fresh

theorem Tracked.accounted_cache (tracked : manager.Tracked) (accounted : manager.Accounted)
    (found : manager.tasks[task]? = some (.instantiating key lock breaker)) :
    (manager.cached task key lock breaker).Accounted ↔ manager.providers.get key = none := by
  refine ⟨?_, ?_⟩
  · intro after
    by_contra occupied
    obtain ⟨id, cached⟩ := Option.ne_none_iff_exists'.mp occupied
    obtain ⟨provider, created, named, live⟩ := tracked.cached key id cached
    have known := (List.getElem?_eq_some_iff.mp created).1
    have created' : (manager.cached task key lock breaker).instances[id]? = some provider := by
      rw [instances_cached, List.getElem?_append_left known, created]
    rcases after id provider created' with closed | still | closing
    · rw [live] at closed
      cases closed
    · rw [get_cached, if_pos named.symm] at still
      cases still
      omega
    · exact (tracked.taken id ((closing_cached found).mp closing)).2 key cached
  · intro free id provider created
    rw [instances_cached] at created
    rw [get_cached, closing_cached found]
    rw [List.getElem?_append] at created
    split at created
    · rcases accounted id provider created with closed | cached | closing
      · exact .inl closed
      · refine .inr (.inl ?_)
        rw [if_neg, cached]
        rintro rfl
        rw [free] at cached
        cases cached
      · exact .inr (.inr closing)
    · rename_i unknown
      obtain ⟨place, rfl⟩ := List.getElem?_eq_some_iff.mp created
      have last : id = manager.instances.length := by
        simp only [List.length_singleton] at place
        omega
      simp [last]

theorem quiet_recordProbeFailure {providerId reason : String} :
    Quiet manager (manager.recordProbeFailure providerId reason) :=
  quiet_foldl (fun _ _ => quiet_recordFailedProbe) _

theorem recordProbeSuccess_eq (providerId : String) :
    ∃ recovered keys, Quiet manager recovered ∧
      manager.recordProbeSuccess providerId = recovered.evict true keys := by
  refine ⟨_, _, ?_, rfl⟩
  exact (quiet_foldl (fun _ _ => quiet_setState) _).trans
    (quiet_foldl (fun _ _ => quiet_closeBreaker) _)

/-- A step leaves the providers alone, evicts some, or caches one that was created. -/
theorem step_cases (stepped : manager.step event = some next) :
    Quiet manager next ∨
      (∃ recovered cachedOnly keys, Quiet manager recovered ∧
        next = recovered.evict cachedOnly keys) ∨
      (∃ task key id rest cachedOnly,
        manager.tasks[task]? = some (.closing key id rest cachedOnly) ∧
          next = manager.closed task key id rest cachedOnly) ∨
      ∃ task key lock breaker, event = .instantiated task .success ∧
        manager.tasks[task]? = some (.instantiating key lock breaker) ∧
          next = manager.cached task key lock breaker := by
  have still : Quiet manager manager := .of_eq rfl rfl rfl
  cases event with
  | getProvider key =>
      cases stepped
      exact .inl quiet_getProvider
  | resume task =>
      obtain ⟨waiting, found, resumed⟩ := Option.bind_eq_some_iff.mp stepped
      simp only [resume] at resumed
      split at resumed
      · split at resumed
        · cases resumed
          exact .inl (quiet_locked found)
        · cases resumed
      · cases resumed
  | instantiated task outcome =>
      simp only [step] at stepped
      split at stepped
      · rename_i key lock breaker found
        cases stepped
        cases outcome with
        | success => exact .inr (.inr (.inr ⟨task, key, lock, breaker, rfl, found, rfl⟩))
        | failure text => exact .inl (quiet_failed found)
        | timeout => exact .inl (quiet_failed found)
      · cases stepped
  | evictDataSource key =>
      cases stepped
      exact .inr (.inl ⟨manager, _, _, still, rfl⟩)
  | evictProvider providerId =>
      cases stepped
      exact .inr (.inl ⟨manager, _, _, still, rfl⟩)
  | evictAll =>
      cases stepped
      exact .inr (.inl ⟨manager, _, _, still, rfl⟩)
  | closed task =>
      simp only [step] at stepped
      split at stepped
      · rename_i key id rest cachedOnly found
        cases stepped
        exact .inr (.inr (.inl ⟨task, key, id, rest, cachedOnly, found, rfl⟩))
      · cases stepped
  | recordProbeSuccess providerId =>
      cases stepped
      obtain ⟨recovered, keys, quiet, evicts⟩ := manager.recordProbeSuccess_eq providerId
      exact .inr (.inl ⟨recovered, true, keys, quiet, evicts⟩)
  | recordProbeFailure providerId reason =>
      cases stepped
      exact .inl quiet_recordProbeFailure
  | elapse duration =>
      simp only [step] at stepped
      split at stepped
      · cases stepped
        exact .inl (.of_eq rfl rfl rfl)
      · cases stepped

theorem Tracked.step (tracked : manager.Tracked) (stepped : manager.step event = some next) :
    next.Tracked := by
  rcases step_cases stepped with quiet | ⟨recovered, cachedOnly, keys, quiet, rfl⟩ |
    ⟨task, key, id, rest, cachedOnly, found, rfl⟩ | ⟨task, key, lock, breaker, -, found, rfl⟩
  · exact quiet.tracked tracked
  · exact (evicts_evict cachedOnly keys).tracked (quiet.tracked tracked)
  · have closing : manager.Closing id := ⟨_, List.mem_of_getElem? found, rfl⟩
    have known := (tracked.taken id closing).1
    exact (evicts_closed found known).tracked
      (quiet_forget.tracked (tracked.closeInstance closing))
  · exact tracked.cache found

theorem Tracked.sound_step_iff (tracked : manager.Tracked) (sound : manager.Sound)
    (event : Event) :
    (∀ next, manager.step event = some next → next.Sound) ↔ manager.Unoccupied event := by
  refine ⟨?_, ?_⟩
  · intro all
    cases event with
    | instantiated task outcome =>
        cases outcome with
        | success =>
            simp only [Unoccupied]
            split
            · rename_i key lock breaker found
              have stepped : manager.step (.instantiated task .success) =
                  some (manager.cached task key lock breaker) := by
                simp only [ProviderManager.step, found, instantiated]
              exact (tracked.accounted_cache sound.accounted found).mp (all _ stepped).accounted
            · trivial
        | failure text => trivial
        | timeout => trivial
    | getProvider key => trivial
    | resume task => trivial
    | evictDataSource key => trivial
    | evictProvider providerId => trivial
    | evictAll => trivial
    | closed task => trivial
    | recordProbeSuccess providerId => trivial
    | recordProbeFailure providerId reason => trivial
    | elapse duration => trivial
  · intro unoccupied next stepped
    rw [sound_iff (tracked.step stepped)]
    rcases step_cases stepped with quiet | ⟨recovered, cachedOnly, keys, quiet, rfl⟩ |
      ⟨task, key, id, rest, cachedOnly, found, rfl⟩ | ⟨task, key, lock, breaker, rfl, found, rfl⟩
    · exact quiet.accounted sound.accounted
    · exact (evicts_evict cachedOnly keys).accounted (quiet.accounted sound.accounted)
    · have closing : manager.Closing id := ⟨_, List.mem_of_getElem? found, rfl⟩
      have known := (tracked.taken id closing).1
      exact (evicts_closed found known).accounted
        (quiet_forget.accounted sound.accounted.closeInstance)
    · have free : manager.providers.get key = none := by
        simpa only [Unoccupied, found] using unoccupied
      exact (tracked.accounted_cache sound.accounted found).mpr free

/-- Every provider that a run creates is cached, closed or being closed throughout exactly
when each instantiation that succeeds finds no provider cached for its key. -/
theorem instances_sound_iff (config : ManagerConfig) (now : Rat) (events : List Event) :
    Always step Sound (create config now) events ↔
      Meets step Unoccupied (create config now) events := by
  have tracked : (create config now).Tracked := {
    cached := fun _ _ cached => nomatch cached
    taken := fun _ closing => by
      obtain ⟨task, member, -⟩ := closing
      cases member
    errors := fun error => nomatch error }
  have accounted : (create config now).Accounted := fun _ _ created => nomatch created
  exact always_iff_meets Tracked (fun _ _ _ tracked stepped => tracked.step stepped)
    (fun _ event tracked sound => tracked.sound_step_iff sound event) tracked
    ((sound_iff tracked).mpr accounted)

def defaultManager : ProviderManager := create ⟨3, 30, 2⟩ 0

def falkor : CacheKey := ("falkor", "lineage")

/-- An eviction drops the lock of a call that instantiates, and a second call instantiates
under a lock of its own. -/
def instantiatedTwice : List Event :=
  [.getProvider falkor, .evictDataSource falkor, .getProvider falkor, .instantiated 0 .success,
    .instantiated 2 .success]

theorem instantiatedTwice_leaks :
    (run step defaultManager instantiatedTwice).map (fun last =>
      (last.tasks.any Task.inProgress, last.instances[0]?, last.providers.get falkor)) =
        some (false, some ⟨falkor, false⟩, some 1) := by
  decide +kernel

theorem instances_not_sound :
    ¬ ∀ last, run step defaultManager instantiatedTwice = some last → last.Sound := by
  intro always
  obtain ⟨last, ran, shape⟩ := Option.map_eq_some_iff.mp instantiatedTwice_leaks
  simp only [Prod.mk.injEq] at shape
  obtain ⟨idle, created, cached⟩ := shape
  have ended : last.Idle := by
    intro task member
    exact Bool.eq_false_iff.mpr (List.any_eq_false.mp idle task member)
  rcases (always last ran).settled ended 0 _ created with closed | kept
  · cases closed
  · rw [cached] at kept
    cases kept

end ProviderManager

end Univiz.Providers
