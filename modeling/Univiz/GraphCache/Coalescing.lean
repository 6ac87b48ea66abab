import Univiz.GraphCache.InFlight

namespace Univiz.GraphCache

open Univiz.Data

/-! One computation for a key at a time in a process, and no call that waits in vain. -/

variable {π ν : Type} {deployment : Deployment π} {system next : CacheSystem π ν}
  {call call' led : CacheCall π ν} {event : CacheEvent π ν} {i leader gen : Nat}

def CacheCall.computes (call : CacheCall π ν) : Option Nat :=
  match call.stage with
  | .computing gen _ => some gen
  | _ => none

def CacheCall.waitsFor (call : CacheCall π ν) : Option Nat :=
  match call.stage with
  | .waiting _ leader => some leader
  | _ => none

def FutureState.failed : FutureState ν → Bool
  | .exception => true
  | _ => false

def FutureState.done : FutureState ν → Bool
  | .pending => false
  | .result _ | .exception => true

/-- A call that leads, or whose future is done: those who wait for it are or will be
released. -/
def CacheCall.Answers (call : CacheCall π ν) : Prop :=
  call.leading.isSome = true ∨ call.future.done = true

/-- No two calls of a process compute for one key, and the leader of a waiting call goes on
or has released it.  A call that bypasses the cache, as when the GET of its known key fails,
computes without a part in the in-flight map and is not counted. -/
def CacheSystem.Coalesces (deployment : Deployment π) (system : CacheSystem π ν) : Prop :=
  (∀ (i j : Nat) (first second : CacheCall π ν) (gen gen' : Nat),
    system.calls[i]? = some first → system.calls[j]? = some second →
    first.computes = some gen → second.computes = some gen' →
    first.process = second.process → first.key deployment gen = second.key deployment gen' →
    i = j) ∧
  ∀ (i : Nat) (call : CacheCall π ν) (leader : Nat),
    system.calls[i]? = some call → call.waitsFor = some leader →
      ∃ led : CacheCall π ν, system.calls[leader]? = some led ∧ led.Answers

/-- A leader is cancelled only while no call waits for it, and a call that a failed leader
releases leads only when no future is in flight for its key. -/
def CacheEvent.Orderly (deployment : Deployment π) (system : CacheSystem π ν) :
    CacheEvent π ν → Prop
  | .cancelled i => ∀ call ∈ system.calls[i]?, call.leading.isSome = true →
      ∀ other ∈ system.calls, other.waitsFor ≠ some i
  | .released i => ∀ call ∈ system.calls[i]?, ∀ wait ∈ call.awaits,
      ∀ led ∈ system.calls[wait.2]?, led.future.failed = true →
        system.inflight.get (call.process, call.key deployment wait.1) = none
  | _ => True

instance : DecidablePred (CacheEvent.Orderly deployment system)
  | .cancelled i => inferInstanceAs (Decidable (∀ call ∈ system.calls[i]?,
      call.leading.isSome = true → ∀ other ∈ system.calls, other.waitsFor ≠ some i))
  | .released i => inferInstanceAs (Decidable (∀ call ∈ system.calls[i]?,
      ∀ wait ∈ call.awaits, ∀ led ∈ system.calls[wait.2]?, led.future.failed = true →
        system.inflight.get (call.process, call.key deployment wait.1) = none))
  | .call _ _ _ | .genServed _ | .entryServed _ | .redisFails _ | .resumes _ _ | .computed _ _
  | .raises _ | .setServed _ _ | .finishes _ | .expires _ | .bump | .bumpServed _
  | .bumpFails _ | .bumpReturns _ => isTrue trivial

/-- The in-flight maps list exactly the leading calls. -/
structure CacheSystem.Listed (deployment : Deployment π) (system : CacheSystem π ν) : Prop
    extends system.Known deployment where
  leads : ∀ (i : Nat) (call : CacheCall π ν) (gen : Nat),
    system.calls[i]? = some call → call.leading = some gen →
      system.inflight.get (call.process, call.key deployment gen) = some i
  waits : ∀ (i : Nat) (call : CacheCall π ν) (leader : Nat),
    system.calls[i]? = some call → call.waitsFor = some leader →
      ∃ led : CacheCall π ν, system.calls[leader]? = some led ∧ led.Answers

namespace CacheSystem

theorem Listed.answers_set (listed : system.Listed deployment)
    (found : system.calls[i]? = some call) (answers : call.Answers → call'.Answers)
    {j : Nat} {other : CacheCall π ν} (lookup : system.calls[j]? = some other)
    (waits : other.waitsFor = some leader) :
    ∃ led, (system.calls.set i call')[leader]? = some led ∧ led.Answers := by
  obtain ⟨led, found', answered⟩ := listed.waits j other leader lookup waits
  by_cases same : i = leader
  · subst same
    cases found.symm.trans found'
    have inside := (List.getElem?_eq_some_iff.mp found).1
    exact ⟨call', List.getElem?_set_self inside, answers answered⟩
  · exact ⟨led, (List.getElem?_set_ne same).trans found', answered⟩

theorem Listed.put (listed : system.Listed deployment) (found : system.calls[i]? = some call)
    (continues : Continues call call') (leads : call'.leading = call.leading)
    (answers : call.Answers → call'.Answers)
    (waits : ∀ leader, call'.waitsFor = some leader →
      ∃ led, system.calls[leader]? = some led ∧ led.Answers) :
    (system.put i call').Listed deployment := by
  refine ⟨listed.toKnown.put found continues leads, ?_, ?_⟩
  · intro j other gen lookup leading
    rcases getElem?_set_cases lookup with ⟨same, rfl⟩ | ⟨-, before⟩
    · subst same
      rw [continues.process, continues.key]
      exact listed.leads i call gen found (leads ▸ leading)
    · exact listed.leads j other gen before leading
  · intro j other leader lookup waiting
    rcases getElem?_set_cases lookup with ⟨-, rfl⟩ | ⟨-, before⟩
    · obtain ⟨led, found', answered⟩ := waits leader waiting
      by_cases same : i = leader
      · subst same
        cases found.symm.trans found'
        have inside := (List.getElem?_eq_some_iff.mp found).1
        exact ⟨_, List.getElem?_set_self inside, answers answered⟩
      · exact ⟨led, (List.getElem?_set_ne same).trans found', answered⟩
    · exact listed.answers_set found answers before waiting

theorem Listed.lead (listed : system.Listed deployment) (found : system.calls[i]? = some call)
    (idle : call.leading = none)
    (free : system.inflight.get (call.process, call.key deployment gen) = none) :
    (system.lead deployment i call gen).Listed deployment := by
  refine ⟨listed.toKnown.lead found idle, ?_, ?_⟩
  · intro j other gen' lookup leading
    simp only [CacheSystem.lead, OrderedMap.get_set]
    rcases getElem?_set_cases lookup with ⟨same, rfl⟩ | ⟨-, before⟩
    · cases leading
      rw [same]
      exact if_pos rfl
    · have inflight := listed.leads j other gen' before leading
      rw [if_neg]
      · exact inflight
      · intro same
        rw [← same, free] at inflight
        cases inflight
  · intro j other leader' lookup waiting
    rcases getElem?_set_cases lookup with ⟨-, rfl⟩ | ⟨-, before⟩
    · cases waiting
    · exact listed.answers_set found (fun _ => .inl rfl) before waiting

theorem Listed.leave (listed : system.Listed deployment) (found : system.calls[i]? = some call)
    (leads : call.leading = some gen) (continues : Continues call call')
    (idle : call'.leading = none) (settled : call'.waitsFor = none)
    (answers : call'.Answers ∨ ∀ other ∈ system.calls, other.waitsFor ≠ some i) :
    (system.leave deployment i call' gen).Listed deployment := by
  have own := listed.leads i call gen found leads
  refine ⟨listed.toKnown.leave found leads continues, ?_, ?_⟩
  · intro j other gen' lookup leading
    simp only [CacheSystem.leave, OrderedMap.get_erase, continues.process, continues.key]
    rcases getElem?_set_cases lookup with ⟨-, rfl⟩ | ⟨apart, before⟩
    · cases idle.symm.trans leading
    · have inflight := listed.leads j other gen' before leading
      rw [if_neg]
      · exact inflight
      · intro same
        rw [← same, own] at inflight
        exact apart (Option.some.inj inflight)
  · intro j other leader lookup waiting
    rcases getElem?_set_cases lookup with ⟨-, rfl⟩ | ⟨-, before⟩
    · cases settled.symm.trans waiting
    · rcases answers with answered | alone
      · exact listed.answers_set found (fun _ => answered) before waiting
      · obtain ⟨led, found', answered⟩ := listed.waits j other leader before waiting
        have apart : i ≠ leader := by
          intro same
          subst same
          exact alone other (List.mem_of_getElem? before) waiting
        exact ⟨led, (List.getElem?_set_ne apart).trans found', answered⟩

/-- A call that has not led goes on without leading or waiting. -/
theorem Listed.goes (listed : system.Listed deployment) (found : system.calls[i]? = some call)
    (idle : call.leading = none) (stage : Stage ν)
    (idle' : ({ call with stage } : CacheCall π ν).leading = none)
    (settled : ({ call with stage } : CacheCall π ν).waitsFor = none) :
    (system.put i { call with stage }).Listed deployment := by
  refine listed.put found ⟨rfl, rfl, rfl⟩ (idle'.trans idle.symm) ?_ ?_
  · intro answers
    rw [CacheCall.Answers, idle] at answers
    exact .inr (answers.resolve_left Bool.false_ne_true)
  · intro leader waiting
    cases settled.symm.trans waiting

theorem Listed.resume (listed : system.Listed deployment) (found : system.calls[i]? = some call)
    {cached : Option (Computed ν)} (stage : call.stage = .fetched gen cached) (readable : Bool) :
    (system.resume deployment i call gen cached readable).Listed deployment := by
  have idle : call.leading = none := by simp only [CacheCall.leading, stage]
  simp only [CacheSystem.resume]
  split
  · exact listed.goes found idle _ rfl rfl
  · split
    · rename_i leader inflight
      obtain ⟨led, gen', lookup, leading, -⟩ := listed.listed _ _ _ inflight
      refine listed.put found ⟨rfl, rfl, rfl⟩ idle.symm ?_ ?_
      · intro answers
        rw [CacheCall.Answers, idle] at answers
        exact .inr (answers.resolve_left Bool.false_ne_true)
      · intro leader' waiting
        cases waiting
        exact ⟨led, lookup, .inl (by rw [leading]; rfl)⟩
    · rename_i free
      exact listed.lead found idle free

theorem Listed.release (listed : system.Listed deployment) (found : system.calls[i]? = some call)
    (stage : call.stage = .waiting gen leader)
    (orderly : CacheEvent.Orderly deployment system (.released i : CacheEvent π ν))
    (released : system.release deployment i call gen leader = some next) :
    next.Listed deployment := by
  have idle : call.leading = none := by simp only [CacheCall.leading, stage]
  obtain ⟨led, lookup, resolved⟩ := Option.bind_eq_some_iff.mp released
  have awaits : call.awaits = some (gen, leader) := by simp only [CacheCall.awaits, stage]
  split at resolved
  · cases resolved
  · cases resolved
    exact listed.goes found idle _ rfl rfl
  · rename_i failed
    cases resolved
    have free : led.future.failed = true →
        system.inflight.get (call.process, call.key deployment gen) = none :=
      orderly call found (gen, leader) awaits led lookup
    exact listed.lead found idle (free (by rw [failed]; rfl))

theorem Listed.cancel (listed : system.Listed deployment) (found : system.calls[i]? = some call)
    (orderly : CacheEvent.Orderly deployment system (.cancelled i : CacheEvent π ν))
    (cancelled : system.cancel deployment i call = some next) : next.Listed deployment := by
  rcases cancel_cases cancelled with ⟨gen, leads, rfl⟩ | ⟨idle, rfl⟩
  · exact listed.leave found leads ⟨rfl, rfl, rfl⟩ rfl rfl
      (.inr (orderly call found (by rw [leads]; rfl)))
  · exact listed.goes found idle _ rfl rfl

theorem Listed.advance (listed : system.Listed deployment)
    (found : system.calls[i]? = some call) (orderly : event.Orderly deployment system)
    (party : event.party = some i)
    (advanced : GraphCache.advance deployment system i call event = some next) :
    next.Listed deployment := by
  cases event <;> cases party
  case genServed =>
    simp only [GraphCache.advance] at advanced
    split at advanced <;> cases advanced
    rename_i stage
    exact listed.goes found (by simp only [CacheCall.leading, stage]) _ rfl rfl
  case entryServed =>
    simp only [GraphCache.advance] at advanced
    split at advanced <;> cases advanced
    rename_i stage
    exact listed.goes found (by simp only [CacheCall.leading, stage]) _ rfl rfl
  case redisFails =>
    simp only [GraphCache.advance] at advanced
    split at advanced <;> cases advanced
    · rename_i stage
      exact listed.goes found (by simp only [CacheCall.leading, stage]) _ rfl rfl
    · rename_i stage
      exact listed.goes found (by simp only [CacheCall.leading, stage]) _ rfl rfl
  case resumes readable =>
    simp only [GraphCache.advance] at advanced
    split at advanced <;> cases advanced
    rename_i stage
    exact listed.resume found stage readable
  case computed value =>
    simp only [GraphCache.advance] at advanced
    split at advanced <;> cases advanced
    · rename_i gen _ stage
      have leads : call.leading = some gen := by simp only [CacheCall.leading, stage]
      exact listed.put found ⟨rfl, rfl, rfl⟩ leads.symm (fun _ => .inl rfl) (by rintro _ ⟨⟩)
    · rename_i stage
      exact listed.goes found (by simp only [CacheCall.leading, stage]) _ rfl rfl
  case raises =>
    simp only [GraphCache.advance] at advanced
    split at advanced <;> cases advanced
    · rename_i gen _ stage
      have leads : call.leading = some gen := by simp only [CacheCall.leading, stage]
      exact listed.leave found leads ⟨rfl, rfl, rfl⟩ rfl rfl (.inl (.inr rfl))
    · rename_i stage
      exact listed.goes found (by simp only [CacheCall.leading, stage]) _ rfl rfl
  case setServed persisted =>
    simp only [GraphCache.advance] at advanced
    split at advanced <;> cases advanced
    rename_i gen result stage
    have leads : call.leading = some gen := by simp only [CacheCall.leading, stage]
    have kept : (system.put i { call with stage := .stored gen result }).Listed deployment :=
      listed.put found ⟨rfl, rfl, rfl⟩ leads.symm (fun _ => .inl rfl) (by rintro _ ⟨⟩)
    exact ⟨⟨kept.listed⟩, kept.leads, kept.waits⟩
  case finishes =>
    simp only [GraphCache.advance] at advanced
    split at advanced <;> cases advanced
    rename_i gen _ stage
    have leads : call.leading = some gen := by simp only [CacheCall.leading, stage]
    exact listed.leave found leads ⟨rfl, rfl, rfl⟩ rfl rfl (.inl (.inr rfl))
  case released =>
    simp only [GraphCache.advance] at advanced
    split at advanced
    · rename_i stage
      exact listed.release found stage orderly advanced
    · cases advanced
  case cancelled => exact listed.cancel found orderly advanced

theorem Listed.called (listed : system.Listed deployment) (idle : call.leading = none)
    (settled : call.waitsFor = none) :
    ({ system with calls := system.calls ++ [call] } : CacheSystem π ν).Listed deployment := by
  refine ⟨listed.toKnown.called call, ?_, ?_⟩
  · intro i other gen lookup leading
    rcases getElem?_concat_cases lookup with before | rfl
    · exact listed.leads i other gen before leading
    · cases idle.symm.trans leading
  · intro i other leader lookup waiting
    rcases getElem?_concat_cases lookup with before | rfl
    · obtain ⟨led, found, answers⟩ := listed.waits i other leader before waiting
      exact ⟨led, getElem?_concat found, answers⟩
    · cases settled.symm.trans waiting

theorem Listed.act (listed : system.Listed deployment) (orderly : event.Orderly deployment system)
    (acted : GraphCache.act deployment system event = some next) : next.Listed deployment := by
  have kept : ∀ {other : CacheSystem π ν}, other.calls = system.calls →
      other.inflight = system.inflight → other.Listed deployment := by
    intro other calls inflight
    refine ⟨⟨?_⟩, ?_, ?_⟩
    · rw [calls, inflight]
      exact listed.listed
    · rw [calls, inflight]
      exact listed.leads
    · rw [calls]
      exact listed.waits
  have party : ∀ {i}, event.party = some i →
      (event.party.bind fun i => system.calls[i]?.bind fun call =>
        GraphCache.advance deployment system i call event) = some next →
      next.Listed deployment := by
    intro i party acted
    simp only [party, Option.bind_some] at acted
    obtain ⟨call, found, advanced⟩ := Option.bind_eq_some_iff.mp acted
    exact listed.advance found orderly party advanced
  cases event with
  | call process endpoint params =>
      cases acted
      exact listed.called (by split <;> rfl) (by split <;> rfl)
  | expires key =>
      cases acted
      exact kept rfl rfl
  | bump =>
      cases acted
      exact kept rfl rfl
  | bumpServed b =>
      obtain ⟨bump, -, rfl⟩ := Option.map_eq_some_iff.mp acted
      exact kept rfl rfl
  | bumpFails b =>
      obtain ⟨bump, -, rfl⟩ := Option.map_eq_some_iff.mp acted
      exact kept rfl rfl
  | bumpReturns b =>
      obtain ⟨bump, -, rfl⟩ := Option.map_eq_some_iff.mp acted
      exact kept rfl rfl
  | _ => exact party rfl acted

theorem Listed.coalesces (listed : system.Listed deployment) : system.Coalesces deployment := by
  refine ⟨?_, listed.waits⟩
  intro i j first second gen gen' found found' computes computes' process key
  have leading : ∀ {call : CacheCall π ν} {gen}, call.computes = some gen →
      call.leading = some gen := by
    intro call gen computes
    simp only [CacheCall.computes] at computes
    split at computes
    · rename_i stage
      simpa only [CacheCall.leading, stage] using computes
    · cases computes
  have inflight := listed.leads i first gen found (leading computes)
  have inflight' := listed.leads j second gen' found' (leading computes')
  rw [process, key, inflight'] at inflight
  exact (Option.some.inj inflight).symm

theorem listed_start : ({} : CacheSystem π ν).Listed deployment where
  listed _ _ _ none := by cases none
  leads _ _ _ none := by cases none
  waits _ _ _ none := by cases none

/-- Orderly calls compute once at a time, and release those who wait. -/
theorem run_orderly_coalesces {events : List (CacheEvent π ν)} {last : CacheSystem π ν}
    (orderly : Meets (step deployment) (CacheEvent.Orderly deployment) {} events)
    (ran : run (step deployment) {} events = some last) : last.Coalesces deployment := by
  refine (run_invariant (Listed deployment) ?_ listed_start orderly ran).coalesces
  intro system event next listed orderly stepped
  obtain ⟨acted, happened, rfl⟩ := Option.map_eq_some_iff.mp stepped
  have listed' := listed.act orderly happened
  exact ⟨⟨listed'.listed⟩, listed'.leads, listed'.waits⟩

/-! Calls of one process for one key. -/

def oneEndpoint : Deployment Unit := ⟨⟨"finance", ""⟩, fun _ => true, fun _ => "digest"⟩

/-- A call up to the point where it leads or waits. -/
def joins (i : Nat) : List (CacheEvent Unit Nat) :=
  [.call 0 "aggregated" (), .genServed i, .entryServed i, .resumes i true]

theorem joined_coalesces : ∃ last : CacheSystem Unit Nat,
    run (step oneEndpoint) {} (joins 0 ++ joins 1 ++ [.raises 0, .released 1, .computed 1 7]) =
        some last ∧ last.inflight.size = 1 ∧ last.Coalesces oneEndpoint := by
  have ended : (run (step oneEndpoint) ({} : CacheSystem Unit Nat)
      (joins 0 ++ joins 1 ++ [.raises 0, .released 1, .computed 1 7])).map
        (fun last => last.inflight.size) = some 1 := by decide +kernel
  obtain ⟨last, ran, size⟩ := Option.map_eq_some_iff.mp ended
  refine ⟨last, ran, size, run_orderly_coalesces ?_ ran⟩
  decide +kernel

/-- Two calls wait for a leader that raises. -/
def failedLeader : List (CacheEvent Unit Nat) :=
  joins 0 ++ joins 1 ++ joins 2 ++ [.raises 0, .released 1, .released 2]

/-- A call waits for a leader that is cancelled. -/
def cancelledLeader : List (CacheEvent Unit Nat) := joins 0 ++ joins 1 ++ [.cancelled 0]

theorem not_coalesces : ¬ ∃ events ∈ [failedLeader, cancelledLeader], ∀ last,
    run (step oneEndpoint) {} events = some last → last.Coalesces oneEndpoint := by
  intro ⟨events, listed, coalesces⟩
  rcases List.mem_pair.mp listed with rfl | rfl
  · have twice : (run (step oneEndpoint) ({} : CacheSystem Unit Nat) failedLeader).map
        (fun last => last.calls.map fun call => (call.process, call.endpoint, call.computes)) =
          some [(0, "aggregated", none), (0, "aggregated", some 0),
            (0, "aggregated", some 0)] := by decide +kernel
    obtain ⟨last, ran, values⟩ := Option.map_eq_some_iff.mp twice
    have at1 := congrArg (·[1]?) values
    have at2 := congrArg (·[2]?) values
    simp only [List.getElem?_map] at at1 at2
    obtain ⟨first, found, same⟩ := Option.map_eq_some_iff.mp at1
    obtain ⟨second, found', same'⟩ := Option.map_eq_some_iff.mp at2
    simp only [Prod.mk.injEq] at same same'
    have key : first.key oneEndpoint 0 = second.key oneEndpoint 0 := by
      rw [CacheCall.key, CacheCall.key, same.2.1, same'.2.1]
    cases (coalesces last ran).1 1 2 first second 0 0 found found' same.2.2 same'.2.2
      (same.1.trans same'.1.symm) key
  · have stuck : (run (step oneEndpoint) ({} : CacheSystem Unit Nat) cancelledLeader).map
        (fun last => last.calls.map fun call =>
          (call.waitsFor, call.leading.isSome, call.future.done)) =
            some [(none, false, false), (some 0, false, false)] := by decide +kernel
    obtain ⟨last, ran, values⟩ := Option.map_eq_some_iff.mp stuck
    have at0 := congrArg (·[0]?) values
    have at1 := congrArg (·[1]?) values
    simp only [List.getElem?_map] at at0 at1
    obtain ⟨leader, found, same⟩ := Option.map_eq_some_iff.mp at0
    obtain ⟨waiting, found', same'⟩ := Option.map_eq_some_iff.mp at1
    obtain ⟨led, lookup, answers⟩ := (coalesces last ran).2 1 waiting 0 found'
      (congrArg (·.1) same')
    cases found.symm.trans lookup
    rcases answers with leads | done
    · cases leads.symm.trans (congrArg (·.2.1) same)
    · cases done.symm.trans (congrArg (·.2.2) same)

end CacheSystem

end Univiz.GraphCache
