import Univiz.Providers.Warmup

namespace Univiz.Providers

open Univiz.Data

/-! The warmup cache and the states of the manager tell the same of a provider, as long as no
recovery goes unnoticed. -/

namespace Warmup

variable {config : WarmupConfig} {warmup next : Warmup} {prober : Prober} {provider : String}

def failing (warmup : Warmup) (provider : String) : Bool :=
  (warmup.warmupCache.get provider).any fun entry => !entry.ok

/-- A failure in the cache is what every state of the provider has observed. -/
def Spread (warmup : Warmup) : Prop :=
  ∀ provider entry, warmup.warmupCache.get provider = some entry → entry.ok = false →
    (∃ key state, key.1 = provider ∧ warmup.manager.providerStates.get key = some state) ∧
    ∀ key state, key.1 = provider → warmup.manager.providerStates.get key = some state →
      state.Observes false (truncated entry.reason)

/-- A state has observed a failure exactly when the cache has one. -/
def Agrees (warmup : Warmup) : Prop :=
  ∀ key state, warmup.manager.providerStates.get key = some state →
    ((∃ reason, state.Observes false reason) ↔ warmup.failing key.1 = true)

def Probing (warmup : Warmup) (prober : Prober) (index : Nat) (provider : String)
    (prevOk : Option Bool) : Prop :=
  ∃ pass, warmup.pass prober = some pass ∧
    pass.probes[index]? = some (provider, .probing prevOk)

/-- The end of the cycle drops no failure from the cache. -/
def KeepsFailures (warmup : Warmup) : Prop :=
  ∀ pass provider, warmup.cycle = some pass → pass.finished = true → warmup.shutdown = false →
    warmup.failing provider = true → provider ∈ pass.providers

/-- A probe that ends well while the cache has a failure began with that failure. -/
def Noticed (warmup : Warmup) : WarmupEvent → Prop
  | .ends prober index preflight => ∀ provider prevOk,
      warmup.Probing prober index provider prevOk → preflight.entry.ok = true →
        prevOk = some false ∨ warmup.failing provider = false
  | .cycleEnds => warmup.KeepsFailures
  | _ => True

/-- The initial pass and the loop do not probe one provider at once. -/
def Separate (warmup : Warmup) (event : WarmupEvent) : Prop :=
  (∀ index index' provider prevOk prevOk', warmup.Probing .initial index provider prevOk →
    ¬ warmup.Probing .loop index' provider prevOk') ∧
  (event = .cycleEnds → warmup.KeepsFailures)

theorem failing_eq_true : warmup.failing provider = true ↔
    ∃ entry, warmup.warmupCache.get provider = some entry ∧ entry.ok = false := by
  rw [failing, Option.any_eq_true]
  simp only [Bool.not_eq_true']

theorem observes_ok {state : ProviderState} {ok other : Bool} {reason text : String}
    (observes : state.Observes ok reason) (observes' : state.Observes other text) :
    ok = other := by
  obtain ⟨time, observation⟩ := observes
  obtain ⟨time', observation'⟩ := observes'
  cases observation.symm.trans observation'
  rfl

@[simp] theorem warmupCache_setPass {pass : Pass} :
    (warmup.setPass pass prober).warmupCache = warmup.warmupCache := by
  cases prober <;> rfl

@[simp] theorem manager_setPass {pass : Pass} :
    (warmup.setPass pass prober).manager = warmup.manager := by
  cases prober <;> rfl

theorem Spread.frame (spread : warmup.Spread) (cache : next.warmupCache = warmup.warmupCache)
    (states : next.manager.providerStates = warmup.manager.providerStates) : next.Spread := by
  unfold Spread
  rw [cache, states]
  exact spread

theorem Agrees.frame (agrees : warmup.Agrees) (cache : next.warmupCache = warmup.warmupCache)
    (states : next.manager.providerStates = warmup.manager.providerStates) : next.Agrees := by
  unfold Agrees failing
  rw [cache, states]
  exact agrees

variable {prevOk : Option Bool} {entry : WarmupEntry}

theorem report_cache : (warmup.report provider prevOk entry).1.warmupCache =
    warmup.warmupCache.set provider entry := by
  unfold report
  simp only
  split
  · rfl
  · split <;> rfl

/-- A failure and a recovery are reported; anything else leaves the manager alone. -/
theorem report_cases :
    (entry.ok = false ∧ (warmup.manager.Reported
      (warmup.report provider prevOk entry).1.manager provider false (truncated entry.reason))) ∨
    (entry.ok = true ∧ prevOk = some false ∧ warmup.manager.Reported
      (warmup.report provider prevOk entry).1.manager provider true "ok") ∨
    (entry.ok = true ∧ prevOk ≠ some false ∧
      (warmup.report provider prevOk entry).1.manager = warmup.manager) := by
  unfold report
  simp only
  split
  · rename_i failed
    exact .inl ⟨failed, ProviderManager.reported_recordProbeFailure⟩
  · rename_i well
    split
    · rename_i recovers
      exact .inr (.inl ⟨Bool.eq_true_of_not_eq_false well, recovers,
        ProviderManager.reported_recordProbeSuccess⟩)
    · rename_i silent
      exact .inr (.inr ⟨Bool.eq_true_of_not_eq_false well, silent, rfl⟩)

/-- The states of the other providers are left alone. -/
theorem report_others {key : CacheKey} (apart : key.1 ≠ provider) :
    (warmup.report provider prevOk entry).1.manager.providerStates.get key =
      warmup.manager.providerStates.get key := by
  rcases @report_cases warmup provider prevOk entry with ⟨-, told⟩ | ⟨-, -, told⟩ | ⟨-, -, same⟩
  · exact told.others key apart
  · exact told.others key apart
  · rw [same]

theorem Spread.report (spread : warmup.Spread) :
    (warmup.report provider prevOk entry).1.Spread := by
  intro other stored cached failed
  rw [report_cache, OrderedMap.get_set] at cached
  split at cached
  · rename_i here
    subst here
    obtain rfl := Option.some.inj cached
    rcases @report_cases warmup provider prevOk entry with ⟨-, told⟩ | ⟨well, -⟩ | ⟨well, -⟩
    · exact ⟨told.known, told.observed⟩
    · exact absurd (failed.symm.trans well) Bool.false_ne_true
    · exact absurd (failed.symm.trans well) Bool.false_ne_true
  · rename_i apart
    obtain ⟨⟨key, state, owner, got⟩, observed⟩ := spread other stored cached failed
    refine ⟨⟨key, state, owner, ?_⟩, ?_⟩
    · rw [report_others (owner ▸ Ne.symm apart), got]
    · intro key state owner got
      rw [report_others (owner ▸ Ne.symm apart)] at got
      exact observed key state owner got

theorem failing_report {other : String} :
    (warmup.report provider prevOk entry).1.failing other =
      if provider = other then !entry.ok else warmup.failing other := by
  rw [failing, report_cache, OrderedMap.get_set]
  split <;> rfl

/-- Only a success that is not reported can part the cache from the states. -/
theorem report_agrees_iff (spread : warmup.Spread) (agrees : warmup.Agrees) :
    (warmup.report provider prevOk entry).1.Agrees ↔
      (entry.ok = true → prevOk = some false ∨ warmup.failing provider = false) := by
  refine ⟨?_, ?_⟩
  · intro after well
    rcases @report_cases warmup provider prevOk entry with ⟨failed, -⟩ | ⟨-, recovers, -⟩ |
      ⟨-, -, same⟩
    · exact absurd (failed.symm.trans well) Bool.false_ne_true
    · exact .inl recovers
    · refine .inr (Bool.eq_false_iff.mpr fun fails => ?_)
      obtain ⟨stored, cached, failed⟩ := failing_eq_true.mp fails
      obtain ⟨⟨key, state, owner, got⟩, observed⟩ := spread provider stored cached failed
      have seen := (after key state (same ▸ got)).mp ⟨_, observed key state owner got⟩
      rw [failing_report, if_pos owner.symm, well] at seen
      cases seen
  · intro noticed key state got
    by_cases here : provider = key.1
    · rw [failing_report, if_pos here]
      rcases @report_cases warmup provider prevOk entry with ⟨failed, told⟩ |
        ⟨well, -, told⟩ | ⟨well, silent, same⟩
      · rw [failed]
        exact ⟨fun _ => rfl, fun _ => ⟨_, told.observed key state here.symm got⟩⟩
      · rw [well]
        refine ⟨?_, fun holds => (by cases holds)⟩
        rintro ⟨reason, observes⟩
        exact absurd (observes_ok observes (told.observed key state here.symm got))
          Bool.false_ne_true
      · rw [same] at got
        rw [well, agrees key state got, ← here, (noticed well).resolve_left silent]
        rfl
    · rw [failing_report, if_neg here]
      rw [report_others (Ne.symm here)] at got
      exact agrees key state got

variable {event : WarmupEvent} {pass : Pass} {index : Nat}

theorem failing_endCycle {other : String} : (warmup.endCycle pass).failing other = true ↔
    warmup.failing other = true ∧ (warmup.shutdown = false → other ∈ pass.providers) := by
  unfold failing endCycle
  simp only
  split
  · rename_i down
    simp [down]
  · rename_i up
    rw [OrderedMap.get_restrict]
    split
    · rename_i kept
      simp [List.contains_iff_mem.mp kept]
    · rename_i dropped
      have absent : other ∉ pass.providers := fun member =>
        dropped (List.contains_iff_mem.mpr member)
      simp [absent, up]

theorem Spread.endCycle (spread : warmup.Spread) : (warmup.endCycle pass).Spread := by
  intro other entry cached failed
  have fails : (warmup.endCycle pass).failing other = true :=
    failing_eq_true.mpr ⟨entry, cached, failed⟩
  refine spread other entry ?_ failed
  unfold Warmup.endCycle at cached
  simp only at cached
  split at cached
  · exact cached
  · rw [OrderedMap.get_restrict] at cached
    split at cached
    · exact cached
    · cases cached

theorem endCycle_agrees_iff (spread : warmup.Spread) (agrees : warmup.Agrees)
    (found : warmup.cycle = some pass) (finished : pass.finished = true) :
    (warmup.endCycle pass).Agrees ↔ warmup.KeepsFailures := by
  refine ⟨?_, ?_⟩
  · rintro after pass' provider found' - up fails
    obtain rfl := Option.some.inj (found.symm.trans found')
    obtain ⟨entry, cached, failed⟩ := failing_eq_true.mp fails
    obtain ⟨⟨key, state, rfl, got⟩, observed⟩ := spread provider entry cached failed
    have seen := (after key state got).mp ⟨_, observed key state rfl got⟩
    exact (failing_endCycle.mp seen).2 up
  · intro keeps key state got
    rw [agrees key state got, failing_endCycle]
    exact ⟨fun fails => ⟨fails, fun up => keeps pass key.1 found finished up fails⟩, And.left⟩

/-- A step leaves the cache and the states alone, reports a probe, or ends a cycle. -/
theorem step_cases (stepped : warmup.step config event = some next) :
    (warmup.Noticed event ∧ next.warmupCache = warmup.warmupCache ∧
      next.manager.providerStates = warmup.manager.providerStates) ∨
    (∃ prober index preflight provider prevOk pass eviction,
      event = .ends prober index preflight ∧ warmup.pass prober = some pass ∧
      pass.probes[index]? = some (provider, .probing prevOk) ∧
      next = (warmup.report provider prevOk preflight.entry).1.setPass
        (pass.setProbe index provider (.reported eviction)) prober) ∨
    ∃ pass, event = .cycleEnds ∧ warmup.cycle = some pass ∧ pass.finished = true ∧
      next = warmup.endCycle pass := by
  cases event with
  | listed prober ids =>
      refine .inl ⟨trivial, ?_⟩
      simp only [step] at stepped
      split at stepped
      · cases prober with
        | initial =>
            simp only [listed] at stepped
            split at stepped
            · cases stepped
            · cases stepped
              exact ⟨rfl, rfl⟩
        | loop =>
            simp only [listed] at stepped
            split at stepped
            · cases stepped
            · split at stepped
              · cases stepped
                exact ⟨rfl, rfl⟩
              · cases stepped
                exact ⟨rfl, rfl⟩
      · cases stepped
  | begins prober =>
      refine .inl ⟨trivial, ?_⟩
      obtain ⟨pass, found, begun⟩ := Option.bind_eq_some_iff.mp stepped
      obtain ⟨index, queued, begun⟩ := Option.bind_eq_some_iff.mp begun
      obtain ⟨⟨provider, probe⟩, lookup, begun⟩ := Option.bind_eq_some_iff.mp begun
      simp only at begun
      split at begun
      · cases begun
        unfold Warmup.begins
        split <;> simp
      · cases begun
  | ends prober index preflight =>
      obtain ⟨pass, found, ended⟩ := Option.bind_eq_some_iff.mp stepped
      split at ended
      · rename_i provider prevOk lookup
        cases ended
        exact .inr (.inl ⟨prober, index, preflight, provider, prevOk, pass, _, rfl, found, lookup,
          rfl⟩)
      · cases ended
  | released prober index =>
      refine .inl ⟨trivial, ?_⟩
      obtain ⟨pass, found, released⟩ := Option.bind_eq_some_iff.mp stepped
      split at released
      · split at released
        · cases released
          simp
        · cases released
      · cases released
  | deadline =>
      cases stepped
      exact .inl ⟨trivial, rfl, rfl⟩
  | cycleEnds =>
      obtain ⟨pass, found, ended⟩ := Option.bind_eq_some_iff.mp stepped
      split at ended
      · rename_i finished
        cases ended
        exact .inr (.inr ⟨pass, rfl, found, finished, rfl⟩)
      · cases ended
  | shutdown =>
      cases stepped
      exact .inl ⟨trivial, rfl, rfl⟩
  | managed event =>
      refine .inl ⟨trivial, ?_⟩
      simp only [step] at stepped
      split at stepped
      · cases stepped
      · rename_i silent
        obtain ⟨manager, managed, rfl⟩ := Option.map_eq_some_iff.mp stepped
        exact ⟨rfl, ProviderManager.step_providerStates (Bool.eq_false_iff.mpr silent) managed⟩

theorem Spread.step (spread : warmup.Spread) (stepped : warmup.step config event = some next) :
    next.Spread := by
  rcases step_cases stepped with ⟨-, cache, states⟩ | ⟨prober, index, preflight, provider, prevOk,
    pass, eviction, -, -, -, rfl⟩ | ⟨pass, -, -, -, rfl⟩
  · exact spread.frame cache states
  · refine Spread.frame ?_ warmupCache_setPass (congrArg _ manager_setPass)
    exact spread.report
  · exact spread.endCycle

theorem agrees_step_iff (spread : warmup.Spread) (agrees : warmup.Agrees) :
    (∀ next, warmup.step config event = some next → next.Agrees) ↔ warmup.Noticed event := by
  refine ⟨?_, ?_⟩
  · intro after
    cases event with
    | ends prober index preflight =>
        rintro provider prevOk ⟨pass, found, lookup⟩
        have stepped : warmup.step config (.ends prober index preflight) =
            some ((warmup.report provider prevOk preflight.entry).1.setPass (pass.setProbe index
              provider (.reported (warmup.report provider prevOk preflight.entry).2)) prober) := by
          simp [Warmup.step, found, lookup]
        refine (report_agrees_iff spread agrees).mp ?_
        exact (after _ stepped).frame (by simp) (by simp)
    | cycleEnds =>
        intro pass provider found finished
        have stepped : warmup.step config .cycleEnds = some (warmup.endCycle pass) := by
          simp [Warmup.step, found, finished]
        exact (endCycle_agrees_iff spread agrees found finished).mp (after _ stepped) pass provider
          found finished
    | listed prober ids => trivial
    | begins prober => trivial
    | released prober index => trivial
    | deadline => trivial
    | shutdown => trivial
    | managed event => trivial
  · intro noticed next stepped
    rcases step_cases stepped with ⟨-, cache, states⟩ | ⟨prober, index, preflight, provider,
      prevOk, pass, eviction, rfl, found, lookup, rfl⟩ | ⟨pass, rfl, found, finished, rfl⟩
    · exact agrees.frame cache states
    · refine Agrees.frame ?_ warmupCache_setPass (congrArg _ manager_setPass)
      exact (report_agrees_iff spread agrees).mpr (noticed provider prevOk ⟨pass, found, lookup⟩)
    · exact (endCycle_agrees_iff spread agrees found finished).mpr noticed

/-- No pass has two tasks for one provider. -/
def Distinct (warmup : Warmup) : Prop :=
  ∀ prober pass, warmup.pass prober = some pass → pass.providers.Nodup

/-- Every probe in progress knows of a failure that the cache has. -/
def Fresh (warmup : Warmup) : Prop :=
  ∀ prober index provider prevOk, warmup.Probing prober index provider prevOk →
    prevOk = some false ∨ warmup.failing provider = false

/-- Where a pass after a step comes from. -/
inductive PassStep (warmup : Warmup) (event : WarmupEvent) (prober : Prober) (after : Pass) : Prop
  | kept (same : warmup.pass prober = some after)
      (quiet : ∀ index, event.ended ≠ some (prober, index))
  | started (concurrency : Nat) (ids : List String) (distinct : ids.Nodup)
      (fresh : after = .start concurrency ids)
  | changed (before : Pass) (index : Nat) (provider : String) (old new : Probe)
      (found : warmup.pass prober = some before)
      (lookup : before.probes[index]? = some (provider, old))
      (known : ∀ prevOk, new = .probing prevOk →
        prevOk = (warmup.warmupCache.get provider).map WarmupEntry.ok ∧ event.ended = none)
      (same : ∀ other, event.ended = some (prober, other) → other = index)
      (written : after = before.setProbe index provider new)

theorem pass_setPass {pass : Pass} {other : Prober} :
    (warmup.setPass pass prober).pass other =
      if prober = other then some pass else warmup.pass other := by
  cases prober <;> cases other <;> rfl

theorem PassStep.setPass {provider : String} {old new : Probe} {after : Pass} {other : Prober}
    {middle : Warmup} (reached : (middle.setPass (pass.setProbe index provider new) prober).pass
      other = some after) (passes : ∀ prober, middle.pass prober = warmup.pass prober)
    (found : warmup.pass prober = some pass)
    (lookup : pass.probes[index]? = some (provider, old))
    (known : ∀ prevOk, new = .probing prevOk →
      prevOk = (warmup.warmupCache.get provider).map WarmupEntry.ok ∧ event.ended = none)
    (same : ∀ ended, event.ended = some ended → ended = (prober, index)) :
    PassStep warmup event other after := by
  rw [pass_setPass] at reached
  split at reached
  · rename_i here
    subst here
    obtain rfl := Option.some.inj reached
    refine .changed pass index provider old new found lookup known ?_ rfl
    intro ended given
    exact congrArg Prod.snd (same _ given)
  · rename_i apart
    rw [passes] at reached
    exact .kept reached fun index given => apart (congrArg Prod.fst (same _ given)).symm

theorem pass_report {other : Prober} :
    (warmup.report provider prevOk entry).1.pass other = warmup.pass other := by
  unfold report
  simp only
  split
  · cases other <;> rfl
  · split
    · cases other <;> rfl
    · cases other <;> rfl

theorem step_passes (stepped : warmup.step config event = some next) (after : Pass)
    (reached : next.pass prober = some after) : PassStep warmup event prober after := by
  cases event with
  | listed lister ids =>
      have quiet : ∀ index, (WarmupEvent.listed lister ids).ended ≠ some (prober, index) :=
        fun _ same => Option.some_ne_none _ same.symm
      simp only [step] at stepped
      split at stepped
      · rename_i distinct
        cases lister with
        | initial =>
            simp only [listed] at stepped
            split at stepped
            · cases stepped
            · cases stepped
              cases prober with
              | initial =>
                  simp only [pass] at reached
                  split at reached
                  · cases reached
                  · exact .started _ ids distinct (Option.some.inj reached).symm
              | loop => exact .kept reached quiet
        | loop =>
            simp only [listed] at stepped
            split at stepped
            · cases stepped
            · split at stepped
              · cases stepped
                exact .kept reached quiet
              · cases stepped
                cases prober with
                | initial => exact .kept reached quiet
                | loop => exact .started _ ids distinct (Option.some.inj reached).symm
      · cases stepped
  | begins beginner =>
      have quiet : ∀ ended index, (WarmupEvent.begins beginner).ended = some ended →
          ended = (beginner, index) := fun _ _ same => (by cases same)
      obtain ⟨pass, found, begun⟩ := Option.bind_eq_some_iff.mp stepped
      obtain ⟨index, queued, begun⟩ := Option.bind_eq_some_iff.mp begun
      obtain ⟨⟨provider, probe⟩, lookup, begun⟩ := Option.bind_eq_some_iff.mp begun
      simp only at begun
      split at begun
      · cases begun
        unfold Warmup.begins at reached
        split at reached
        · refine .setPass reached (fun _ => rfl) found lookup ?_ fun ended => quiet ended index
          intro prevOk known
          cases known
        · refine .setPass reached (fun _ => rfl) found lookup ?_ fun ended => quiet ended index
          intro prevOk known
          cases known
          exact ⟨rfl, rfl⟩
      · cases begun
  | ends ender index preflight =>
      obtain ⟨pass, found, ended⟩ := Option.bind_eq_some_iff.mp stepped
      split at ended
      · rename_i provider prevOk lookup
        cases ended
        refine .setPass reached (fun _ => pass_report) found lookup ?_ ?_
        · intro other known
          cases known
        · intro other given
          exact (Option.some.inj given).symm
      · cases ended
  | released releaser index =>
      obtain ⟨pass, found, released⟩ := Option.bind_eq_some_iff.mp stepped
      split at released
      · rename_i provider eviction lookup
        split at released
        · cases released
          refine .setPass reached (fun _ => rfl) found lookup ?_ ?_
          · intro prevOk known
            cases known
          · intro ended given
            cases given
        · cases released
      · cases released
  | deadline =>
      cases stepped
      cases prober with
      | initial => cases reached
      | loop => exact .kept reached fun _ same => Option.some_ne_none _ same.symm
  | cycleEnds =>
      obtain ⟨pass, found, ended⟩ := Option.bind_eq_some_iff.mp stepped
      split at ended
      · cases ended
        cases prober with
        | initial => exact .kept reached fun _ same => Option.some_ne_none _ same.symm
        | loop => cases reached
      · cases ended
  | shutdown =>
      cases stepped
      refine .kept ?_ fun _ same => Option.some_ne_none _ same.symm
      cases prober <;> exact reached
  | managed event =>
      simp only [step] at stepped
      split at stepped
      · cases stepped
      · obtain ⟨manager, managed, rfl⟩ := Option.map_eq_some_iff.mp stepped
        refine .kept ?_ fun _ same => Option.some_ne_none _ same.symm
        cases prober <;> exact reached

theorem providers_setProbe {old new : Probe} (lookup : pass.probes[index]? = some (provider, old)) :
    (pass.setProbe index provider new).providers = pass.providers := by
  rw [Pass.providers, Pass.setProbe, List.map_set]
  refine List.ext_getElem? fun place => ?_
  rw [List.getElem?_set]
  split
  · rename_i here
    subst here
    obtain ⟨inside, found⟩ := List.getElem?_eq_some_iff.mp lookup
    simp [Pass.providers, inside, found]
  · rfl

theorem Distinct.step (distinct : warmup.Distinct)
    (stepped : warmup.step config event = some next) : next.Distinct := by
  intro prober after reached
  cases step_passes stepped after reached with
  | kept same quiet => exact distinct prober after same
  | started concurrency ids fresh begun =>
      subst begun
      have names : (Pass.start concurrency ids).providers = ids.filter (· ≠ "") := by
        rw [Pass.providers, Pass.start, List.map_map]
        exact List.map_id _
      rw [names]
      exact fresh.filter _
  | changed before index provider old new found lookup known same written =>
      subst written
      rw [providers_setProbe lookup]
      exact distinct prober before found

/-- A provider starts to fail in the cache only when a probe of it ends. -/
theorem failing_step (stepped : warmup.step config event = some next)
    (fails : next.failing provider = true) : warmup.failing provider = true ∨
      ∃ prober index prevOk, event.ended = some (prober, index) ∧
        warmup.Probing prober index provider prevOk := by
  rcases step_cases stepped with ⟨-, cache, -⟩ | ⟨prober, index, preflight, owner, prevOk, pass,
    eviction, rfl, found, lookup, rfl⟩ | ⟨pass, -, -, -, rfl⟩
  · rw [failing, cache] at fails
    exact .inl fails
  · by_cases here : owner = provider
    · subst here
      exact .inr ⟨prober, index, prevOk, rfl, pass, found, lookup⟩
    · have same : (warmup.report owner prevOk preflight.entry).1.failing provider = true := by
        rw [failing, warmupCache_setPass] at fails
        exact fails
      rw [failing_report, if_neg here] at same
      exact .inl same
  · exact .inl (failing_endCycle.mp fails).1

/-- Apart from the tasks that begin with this step, a probe in progress has been so before, and
has not ended. -/
theorem probing_step (stepped : warmup.step config event = some next)
    (probing : next.Probing prober index provider prevOk) :
    (prevOk = (warmup.warmupCache.get provider).map WarmupEntry.ok ∧ event.ended = none) ∨
    (warmup.Probing prober index provider prevOk ∧ event.ended ≠ some (prober, index)) := by
  obtain ⟨after, reached, lookup⟩ := probing
  cases step_passes stepped after reached with
  | kept same quiet => exact .inr ⟨⟨after, same, lookup⟩, quiet index⟩
  | started concurrency ids distinct begun =>
      subst begun
      have member := List.mem_of_getElem? lookup
      obtain ⟨id, -, queued⟩ := List.mem_map.mp member
      cases queued
  | changed before place owner old new found held known same written =>
      subst written
      rw [Pass.setProbe, List.getElem?_set] at lookup
      split at lookup
      · rename_i here
        split at lookup
        · have given := Option.some.inj lookup
          obtain rfl : owner = provider := congrArg Prod.fst given
          exact .inl (known prevOk (congrArg Prod.snd given))
        · cases lookup
      · rename_i apart
        refine .inr ⟨⟨before, found, lookup⟩, ?_⟩
        intro ended
        exact apart (same index ended).symm

theorem Distinct.index_eq {other : Nat} {prevOk' : Option Bool} (distinct : warmup.Distinct)
    (probing : warmup.Probing prober index provider prevOk)
    (probing' : warmup.Probing prober other provider prevOk') : index = other := by
  obtain ⟨pass, found, lookup⟩ := probing
  obtain ⟨pass', found', lookup'⟩ := probing'
  obtain rfl := Option.some.inj (found.symm.trans found')
  have inside := (List.getElem?_eq_some_iff.mp lookup).1
  have first : pass.providers[index]? = some provider := by
    rw [Pass.providers, List.getElem?_map, lookup]
    rfl
  have second : pass.providers[other]? = some provider := by
    rw [Pass.providers, List.getElem?_map, lookup']
    rfl
  have bound : index < pass.providers.length := by rwa [Pass.providers, List.length_map]
  exact (List.getElem?_inj bound (distinct prober pass found)).mp (first.trans second.symm)

theorem Fresh.step (fresh : warmup.Fresh) (distinct : warmup.Distinct)
    (separate : warmup.Separate event) (stepped : warmup.step config event = some next) :
    next.Fresh := by
  intro prober index provider prevOk probing
  rcases probing_step stepped probing with ⟨rfl, silent⟩ | ⟨before, going⟩
  · refine or_iff_not_imp_right.mpr fun fails => ?_
    have failed : warmup.failing provider = true := by
      rcases failing_step stepped (Bool.eq_true_of_not_eq_false fails) with old |
        ⟨ender, place, prevOk', given, -⟩
      · exact old
      · exact absurd (silent.symm.trans given).symm (Option.some_ne_none _)
    obtain ⟨entry, cached, bad⟩ := failing_eq_true.mp failed
    rw [cached, Option.map_some, bad]
  · refine (fresh prober index provider prevOk before).imp_right fun well => ?_
    refine Bool.eq_false_iff.mpr fun fails => ?_
    rcases failing_step stepped fails with old | ⟨ender, place, prevOk', given, ended⟩
    · exact absurd (well.symm.trans old) Bool.false_ne_true
    · by_cases same : ender = prober
      · subst same
        exact going (distinct.index_eq before ended ▸ given)
      · cases prober with
        | initial =>
            cases ender with
            | initial => exact same rfl
            | loop => exact separate.1 _ _ _ _ _ before ended
        | loop =>
            cases ender with
            | initial => exact separate.1 _ _ _ _ _ ended before
            | loop => exact same rfl

theorem Separate.noticed (separate : warmup.Separate event) (fresh : warmup.Fresh) :
    warmup.Noticed event := by
  cases event with
  | ends prober index preflight =>
      intro provider prevOk probing _
      exact fresh prober index provider prevOk probing
  | cycleEnds => exact separate.2 rfl
  | listed prober ids => trivial
  | begins prober => trivial
  | released prober index => trivial
  | deadline => trivial
  | shutdown => trivial
  | managed event => trivial

/-- The states of the manager agree with the cache throughout exactly when no recovery goes
unnoticed; it does not where the initial pass and the loop keep apart. -/
theorem states_agree (config : WarmupConfig) (managerConfig : ManagerConfig) (now : Rat)
    (events : List WarmupEvent) :
    Always (step config) Spread (start managerConfig now) events ∧
    (Always (step config) Agrees (start managerConfig now) events ↔
      Meets (step config) Noticed (start managerConfig now) events) ∧
    (Meets (step config) Separate (start managerConfig now) events →
      Always (step config) Agrees (start managerConfig now) events) := by
  have spread : (start managerConfig now).Spread := fun _ _ cached _ => (by cases cached)
  have agrees : (start managerConfig now).Agrees := fun _ _ got => (by cases got)
  have distinct : (start managerConfig now).Distinct := by
    intro prober pass reached
    cases prober <;> cases reached
  have fresh : (start managerConfig now).Fresh := by
    rintro prober index provider prevOk ⟨pass, reached, -⟩
    cases prober <;> cases reached
  refine ⟨?_, ?_, ?_⟩
  · exact always_of_meets Spread (fun _ _ _ holds _ stepped => holds.step stepped)
      (fun _ holds => holds) spread (meets_of_forall fun _ _ _ => trivial)
  · exact always_iff_meets Spread (fun _ _ _ holds stepped => holds.step stepped)
      (fun _ _ holds agrees => agrees_step_iff holds agrees) spread agrees
  · refine always_of_meets
      (fun warmup => (warmup.Spread ∧ warmup.Agrees) ∧ warmup.Distinct ∧ warmup.Fresh) ?_
      (fun _ holds => holds.1.2) ⟨⟨spread, agrees⟩, distinct, fresh⟩
    rintro warmup event next ⟨⟨spread, agrees⟩, distinct, fresh⟩ separate stepped
    exact ⟨⟨spread.step stepped,
      (agrees_step_iff spread agrees).mpr (separate.noticed fresh) next stepped⟩,
      distinct.step stepped, fresh.step distinct separate stepped⟩

def probed (warmup : Warmup) (prober : Prober) : List String :=
  (warmup.pass prober).toList.flatMap fun pass => pass.probes.filterMap fun (provider, probe) =>
    match probe with
    | .probing _ => some provider
    | _ => none

theorem mem_probed : provider ∈ warmup.probed prober ↔
    ∃ index prevOk, warmup.Probing prober index provider prevOk := by
  simp only [probed, List.mem_flatMap, Option.mem_toList, List.mem_filterMap]
  constructor
  · rintro ⟨pass, found, ⟨owner, probe⟩, member, same⟩
    cases probe with
    | probing prevOk =>
        obtain rfl := Option.some.inj same
        obtain ⟨index, lookup⟩ := List.mem_iff_getElem?.mp member
        exact ⟨index, prevOk, pass, found, lookup⟩
    | queued => cases same
    | reported eviction => cases same
    | finished => cases same
  · rintro ⟨index, prevOk, pass, found, lookup⟩
    exact ⟨pass, found, _, List.mem_of_getElem? lookup, rfl⟩

instance decidableKeepsFailures (warmup : Warmup) : Decidable warmup.KeepsFailures :=
  decidable_of_iff (∀ pass ∈ warmup.cycle, pass.finished = true → warmup.shutdown = false →
      ∀ cached ∈ warmup.warmupCache.entries, cached.2.ok = false → cached.1 ∈ pass.providers) <| by
    constructor
    · intro keeps pass provider found finished up fails
      obtain ⟨entry, cached, failed⟩ := failing_eq_true.mp fails
      exact keeps pass found finished up _ (OrderedMap.get_eq_some.mp cached) failed
    · rintro keeps pass found finished up ⟨provider, entry⟩ member failed
      refine keeps pass provider found finished up (failing_eq_true.mpr ⟨entry, ?_, failed⟩)
      exact OrderedMap.get_eq_some.mpr member

instance decidableSeparate (warmup : Warmup) (event : WarmupEvent) :
    Decidable (warmup.Separate event) :=
  decidable_of_iff ((∀ provider ∈ warmup.probed .initial, provider ∉ warmup.probed .loop) ∧
      (event = .cycleEnds → warmup.KeepsFailures)) <| by
    refine and_congr_left fun _ => ?_
    simp only [mem_probed, not_exists, forall_exists_index]
    exact ⟨fun apart index index' provider prevOk prevOk' probing =>
        apart provider index prevOk probing index' prevOk',
      fun apart provider index prevOk probing index' prevOk' =>
        apart index index' provider prevOk prevOk' probing⟩

/-- A provider fails in the initial pass, and the loop finds it well again. -/
def recovering : List WarmupEvent :=
  [.listed .initial ["falkor", "spanner"], .begins .initial, .begins .initial,
    .ends .initial 0 .wallClockExceeded, .released .initial 0, .listed .loop ["falkor", "spanner"],
    .begins .loop, .ends .initial 1 (.answered true "ok"), .ends .loop 0 (.answered true "ok"),
    .begins .loop, .ends .loop 1 (.answered true "ok")]

theorem recovering_agrees :
    (run (step ⟨4, 8⟩) (start ⟨3, 30, 2⟩ 0) (recovering.take 5)).map (fun middle =>
      (middle.failing "falkor", middle.manager.observedUnhealthy ("falkor", ""))) =
        some (true, true) ∧
    (run (step ⟨4, 8⟩) (start ⟨3, 30, 2⟩ 0) recovering).map (fun last =>
      (last.failing "falkor", last.manager.observedUnhealthy ("falkor", ""))) =
        some (false, false) ∧
    Always (step ⟨4, 8⟩) Agrees (start ⟨3, 30, 2⟩ 0) recovering := by
  refine ⟨by decide +kernel, by decide +kernel, ?_⟩
  have separate : Meets (step ⟨4, 8⟩) Separate (start ⟨3, 30, 2⟩ 0) recovering := by decide +kernel
  exact (states_agree ⟨4, 8⟩ ⟨3, 30, 2⟩ 0 recovering).2.2 separate

/-- At the start both passes probe a provider that the cache does not have yet.  The failure of
the one stays in the states after the success of the other. -/
example : (run (step ⟨4, 8⟩) (start ⟨3, 30, 2⟩ 0) [.listed .initial ["falkor"],
    .listed .loop ["falkor"], .begins .initial, .begins .loop, .ends .initial 0 .wallClockExceeded,
    .ends .loop 0 (.answered true "ok")]).map (fun last =>
      (last.failing "falkor", last.manager.observedUnhealthy ("falkor", ""))) =
        some (false, true) := by
  decide +kernel

end Warmup

end Univiz.Providers
