import Univiz.Data.Texts
import Univiz.GraphCache.InFlight

namespace Univiz.GraphCache

open Univiz.Data

/-! A call that begins after a bump has returned gives no value from before the bump. -/

variable {π ν : Type} {deployment : Deployment π} {system next : CacheSystem π ν}
  {call call' led : CacheCall π ν} {event : CacheEvent π ν} {bumps bumps' : List Bump}
  {i gen gen' now now' since : Nat}

theorem buildKey_inj {scope : CacheScope} {endpoint endpoint' digest digest' : String}
    (same : buildKey scope gen endpoint digest = buildKey scope gen' endpoint' digest') :
    gen = gen' := by
  have chars := congrArg String.toList same
  simp only [buildKey, String.toList_append, List.append_assoc, List.append_cancel_left_eq]
    at chars
  exact Decimal.repr_inj_of_append chars

namespace CacheCall

/-- The generation that a call goes by. -/
def read (call : CacheCall π ν) : Option Nat :=
  match call.stage with
  | .askingEntry gen | .fetched gen _ | .waiting gen _ | .computing gen _ | .storing gen _
  | .stored gen _ => some gen
  | _ => none

/-- When the computation of a value under a generation began. -/
def holding (call : CacheCall π ν) : Option Nat :=
  match call.stage with
  | .fetched _ cached => cached.map (·.since)
  | .computing _ since => some since
  | .storing _ result | .stored _ result => some result.since
  | _ => none

/-- When the computation of the value began that the call has returned or will return
without the cache. -/
def gives (call : CacheCall π ν) : Option Nat :=
  match call.stage with
  | .returned result => some result.since
  | .bypassing since => some since
  | _ => none

def ended (call : CacheCall π ν) : Bool :=
  match call.stage with
  | .returned _ | .raised | .cancelled => true
  | _ => false

end CacheCall

/-- Every bump up to a generation had begun by a time. -/
def FreshFor (bumps : List Bump) (gen since : Nat) : Prop :=
  ∀ bump ∈ bumps, ∀ n ∈ bump.gen, n ≤ gen → bump.beganAt ≤ since

/-- No call gives a value whose computation is older than a bump that had returned when the
call began. -/
def CacheSystem.Fresh (system : CacheSystem π ν) : Prop :=
  ∀ call ∈ system.calls, ∀ result, call.stage = .returned result →
    ∀ bump ∈ system.bumps, ∀ returned ∈ bump.returnedAt, returned < call.startedAt →
      bump.beganAt ≤ result.since

/-- What is true of a call at a time, with the generation in Redis. -/
structure CacheCall.Dated (bumps : List Bump) (current now : Nat) (call : CacheCall π ν) :
    Prop where
  started : call.startedAt < now
  pending : call.ended = false → call.future = .pending
  reads : ∀ gen ∈ call.read, gen ≤ current ∧ ∀ bump ∈ bumps, ∀ returned ∈ bump.returnedAt,
    returned < call.startedAt → ∀ n ∈ bump.gen, n ≤ gen
  holds : ∀ gen ∈ call.read, ∀ since ∈ call.holding, FreshFor bumps gen since
  gives : ∀ since ∈ call.gives, ∀ bump ∈ bumps, ∀ returned ∈ bump.returnedAt,
    returned < call.startedAt → bump.beganAt ≤ since

/-- A leader of a generation, or one that has left nothing but a fresh result. -/
def CacheCall.Serves (bumps : List Bump) (gen : Nat) (call : CacheCall π ν) : Prop :=
  call.leading = some gen ∨
    call.ended = true ∧ ∀ result, call.future = .result result → FreshFor bumps gen result.since

structure Bump.Dated (current now : Nat) (bump : Bump) : Prop where
  began : bump.beganAt < now
  served : ∀ n ∈ bump.gen, n ≤ current
  returned : ∀ returned ∈ bump.returnedAt,
    returned < now ∧ bump.beganAt ≤ returned ∧ bump.gen ≠ none

structure CacheSystem.Dated (deployment : Deployment π) (now : Nat) (system : CacheSystem π ν) :
    Prop extends system.Known deployment where
  bumps : ∀ bump ∈ system.bumps, bump.Dated system.gen now
  calls : ∀ call ∈ system.calls, call.Dated system.bumps system.gen now
  awaited : ∀ call ∈ system.calls, ∀ wait ∈ call.awaits,
    ∃ led, system.calls[wait.2]? = some led ∧ led.Serves system.bumps wait.1
  entries : ∀ key entry, system.entries.get key = some entry → ∀ gen endpoint params,
    key = buildKey deployment.scope gen endpoint (deployment.digest params) →
      gen ≤ system.gen ∧ FreshFor system.bumps gen entry.since

namespace CacheSystem

/-- What a call gives that has read its generation is fresh. -/
theorem Dated.current (dated : system.Dated deployment now)
    (member : call ∈ system.calls) (read : call.read = some gen)
    (fresh : FreshFor system.bumps gen since) {bump : Bump} (listed : bump ∈ system.bumps)
    {returned : Nat} (answered : bump.returnedAt = some returned)
    (before : returned < call.startedAt) : bump.beganAt ≤ since := by
  obtain ⟨n, served⟩ := Option.ne_none_iff_exists'.mp
    ((dated.bumps bump listed).returned returned answered).2.2
  obtain ⟨_, earlier⟩ := (dated.calls call member).reads gen read
  exact fresh bump listed n served (earlier bump listed returned answered before n served)

/-- A call goes on, and the other calls are as they were. -/
theorem Dated.change (dated : system.Dated deployment now) {system' : CacheSystem π ν}
    (found : system.calls[i]? = some call) (runs : call.ended = false)
    (known : system'.Known deployment) (calls : system'.calls = system.calls.set i call')
    (bumps : system'.bumps = system.bumps) (gen : system'.gen = system.gen) (later : now ≤ now')
    (call'Dated : call'.Dated system.bumps system.gen now')
    (serves : ∀ gen, call.leading = some gen → call'.Serves system.bumps gen)
    (awaited : ∀ wait ∈ call'.awaits,
      ∃ led, system.calls[wait.2]? = some led ∧ led.Serves system.bumps wait.1)
    (entries : ∀ key entry, system'.entries.get key = some entry → ∀ gen endpoint params,
      key = buildKey deployment.scope gen endpoint (deployment.digest params) →
        gen ≤ system.gen ∧ FreshFor system.bumps gen entry.since) :
    system'.Dated deployment now' where
  toKnown := known
  bumps := by
    rw [bumps, gen]
    intro bump listed
    obtain ⟨began, served, returned⟩ := dated.bumps bump listed
    refine ⟨Nat.lt_of_lt_of_le began later, served, ?_⟩
    intro time answered
    obtain ⟨past, order, some'⟩ := returned time answered
    exact ⟨Nat.lt_of_lt_of_le past later, order, some'⟩
  calls := by
    rw [bumps, gen, calls]
    intro other member
    rcases List.mem_or_eq_of_mem_set member with earlier | rfl
    · obtain ⟨started, pending, reads, holds, gives⟩ := dated.calls other earlier
      exact ⟨Nat.lt_of_lt_of_le started later, pending, reads, holds, gives⟩
    · exact call'Dated
  awaited := by
    have inside := (List.getElem?_eq_some_iff.mp found).1
    have kept : ∀ wait : Nat × Nat,
        (∃ led, system.calls[wait.2]? = some led ∧ led.Serves system.bumps wait.1) →
        ∃ led, (system.calls.set i call')[wait.2]? = some led ∧
          led.Serves system.bumps wait.1 := by
      rintro wait ⟨led, lookup, serving⟩
      by_cases same : i = wait.2
      · rw [← same] at lookup ⊢
        cases found.symm.trans lookup
        refine ⟨call', List.getElem?_set_self inside, ?_⟩
        rcases serving with leads | ⟨ended, _⟩
        · exact serves _ leads
        · cases runs.symm.trans ended
      · exact ⟨led, (List.getElem?_set_ne same).trans lookup, serving⟩
    rw [bumps, calls]
    intro other member wait waiting
    rcases List.mem_or_eq_of_mem_set member with earlier | rfl
    · exact kept wait (dated.awaited other earlier wait waiting)
    · exact kept wait (awaited wait waiting)
  entries := by
    rw [bumps, gen]
    exact entries

/-- What is asked of a call that has not read the generation, or has ended. -/
theorem dated_of_unread (started : call.startedAt < now)
    (pending : call.ended = false → call.future = .pending) (unread : call.read = none)
    (gives : ∀ since ∈ call.gives, ∀ bump ∈ bumps, ∀ returned ∈ bump.returnedAt,
      returned < call.startedAt → bump.beganAt ≤ since) :
    call.Dated bumps current now where
  started := started
  pending := pending
  reads gen read := by cases unread.symm.trans read
  holds gen read := by cases unread.symm.trans read
  gives := gives

/-- A call goes on to a stage without a generation. -/
theorem Dated.unread (dated : system.Dated deployment now) (member : call ∈ system.calls)
    (runs : call.ended = false) (stage : Stage ν)
    (unread : ({ call with stage } : CacheCall π ν).read = none)
    (gives : ∀ since ∈ ({ call with stage } : CacheCall π ν).gives, ∀ bump ∈ system.bumps,
      ∀ returned ∈ bump.returnedAt, returned < call.startedAt → bump.beganAt ≤ since) :
    ({ call with stage } : CacheCall π ν).Dated system.bumps system.gen (now + 1) :=
  dated_of_unread (Nat.lt_succ_of_lt (dated.calls call member).started)
    (fun _ => (dated.calls call member).pending runs) unread gives

/-- A call goes on under the generation that it has read, and returns nothing yet. -/
theorem Dated.reading (dated : system.Dated deployment now) (member : call ∈ system.calls)
    (runs : call.ended = false) (read : call.read = some gen) (stage : Stage ν)
    (reading : ({ call with stage } : CacheCall π ν).read = some gen)
    (silent : ({ call with stage } : CacheCall π ν).gives = none)
    (holds : ∀ since ∈ ({ call with stage } : CacheCall π ν).holding,
      FreshFor system.bumps gen since) :
    ({ call with stage } : CacheCall π ν).Dated system.bumps system.gen (now + 1) where
  started := Nat.lt_succ_of_lt (dated.calls call member).started
  pending _ := (dated.calls call member).pending runs
  reads gen' read' := by
    cases reading.symm.trans read'
    exact (dated.calls call member).reads gen read
  holds gen' read' := by
    cases reading.symm.trans read'
    exact holds
  gives since given := by cases silent.symm.trans given

/-- A call that does not lead goes on to a stage in which it does not lead or wait. -/
theorem Dated.goes (dated : system.Dated deployment now) (found : system.calls[i]? = some call)
    (runs : call.ended = false) (idle : call.leading = none) (stage : Stage ν)
    (idle' : ({ call with stage } : CacheCall π ν).leading = none)
    (settled : ({ call with stage } : CacheCall π ν).awaits = none)
    (staged : ({ call with stage } : CacheCall π ν).Dated system.bumps system.gen (now + 1)) :
    (system.put i { call with stage }).Dated deployment (now + 1) := by
  refine dated.change found runs (dated.toKnown.put found ⟨rfl, rfl, rfl⟩ (idle'.trans idle.symm))
    rfl rfl rfl (Nat.le_succ now) staged ?_ ?_ dated.entries
  · intro gen leads
    cases idle.symm.trans leads
  · intro wait waiting
    cases settled.symm.trans waiting

theorem Dated.freshNow (dated : system.Dated deployment now) (gen : Nat) :
    FreshFor system.bumps gen now :=
  fun bump listed _ _ _ => Nat.le_of_lt (dated.bumps bump listed).began

theorem Dated.lead (dated : system.Dated deployment system.clock)
    (found : system.calls[i]? = some call) (runs : call.ended = false)
    (idle : call.leading = none) (read : call.read = some gen) :
    (system.lead deployment i call gen).Dated deployment (system.clock + 1) := by
  refine dated.change found runs (dated.toKnown.lead found idle) rfl rfl rfl (Nat.le_succ _)
    (dated.reading (List.mem_of_getElem? found) runs read _ rfl rfl ?_) ?_ ?_ dated.entries
  · intro since held
    cases held
    exact dated.freshNow gen
  · intro gen leads
    cases idle.symm.trans leads
  · intro wait waiting
    cases waiting

/-- A leader leaves, with a future that is fresh for its generation or none. -/
theorem Dated.leave (dated : system.Dated deployment now) (found : system.calls[i]? = some call)
    (leads : call.leading = some gen) (runs : call.ended = false)
    (continues : Continues call call') (ended : call'.ended = true)
    (settled : call'.awaits = none)
    (left : call'.Dated system.bumps system.gen (now + 1))
    (fresh : ∀ result, call'.future = .result result → FreshFor system.bumps gen result.since) :
    (system.leave deployment i call' gen).Dated deployment (now + 1) := by
  refine dated.change found runs (dated.toKnown.leave found leads continues) rfl rfl rfl
    (Nat.le_succ now) left ?_ ?_ dated.entries
  · intro gen' leads'
    cases leads.symm.trans leads'
    exact .inr ⟨ended, fresh⟩
  · intro wait waiting
    cases settled.symm.trans waiting

/-- A call that has read its generation returns what is fresh for it. -/
theorem Dated.returns (dated : system.Dated deployment now) (member : call ∈ system.calls)
    (runs : call.ended = false) (read : call.read = some gen) {result : Computed ν}
    (fresh : FreshFor system.bumps gen result.since) :
    ({ call with stage := .returned result } : CacheCall π ν).Dated system.bumps system.gen
      (now + 1) := by
  refine dated.unread member runs _ rfl ?_
  intro since given bump listed returned answered before
  cases given
  exact dated.current member read fresh listed answered before

theorem Dated.resume (dated : system.Dated deployment system.clock)
    (found : system.calls[i]? = some call) {cached : Option (Computed ν)}
    (stage : call.stage = .fetched gen cached) (readable : Bool) :
    (system.resume deployment i call gen cached readable).Dated deployment
      (system.clock + 1) := by
  have member := List.mem_of_getElem? found
  have runs : call.ended = false := by simp only [CacheCall.ended, stage]
  have idle : call.leading = none := by simp only [CacheCall.leading, stage]
  have read : call.read = some gen := by simp only [CacheCall.read, stage]
  simp only [CacheSystem.resume]
  split
  · rename_i result hit
    have held : call.holding = some result.since := by
      simp only [CacheCall.holding, stage, (Option.filter_eq_some_iff.mp hit).1, Option.map_some]
    exact dated.goes found runs idle _ rfl rfl (dated.returns member runs read
      ((dated.calls call member).holds gen read result.since held))
  · split
    · rename_i leader inflight
      obtain ⟨led, gen', lookup, leads, -, key⟩ := dated.listed _ _ _ inflight
      have same : gen' = gen := buildKey_inj key
      subst same
      refine dated.change found runs (dated.toKnown.put found ⟨rfl, rfl, rfl⟩ idle.symm) rfl rfl
        rfl (Nat.le_succ _) (dated.reading member runs read _ rfl rfl ?_) ?_ ?_ dated.entries
      · intro since held
        cases held
      · intro gen leads'
        cases idle.symm.trans leads'
      · intro wait waiting
        cases waiting
        exact ⟨led, lookup, .inl leads⟩
    · exact dated.lead found runs idle read

theorem Dated.release (dated : system.Dated deployment system.clock)
    (found : system.calls[i]? = some call) {leader : Nat}
    (stage : call.stage = .waiting gen leader)
    (released : system.release deployment i call gen leader = some next) :
    next.Dated deployment (system.clock + 1) := by
  have member := List.mem_of_getElem? found
  have runs : call.ended = false := by simp only [CacheCall.ended, stage]
  have idle : call.leading = none := by simp only [CacheCall.leading, stage]
  have read : call.read = some gen := by simp only [CacheCall.read, stage]
  have awaits : call.awaits = some (gen, leader) := by simp only [CacheCall.awaits, stage]
  obtain ⟨led, lookup, resolved⟩ := Option.bind_eq_some_iff.mp released
  split at resolved
  · cases resolved
  · rename_i result future
    cases resolved
    obtain ⟨led', lookup', serving⟩ := dated.awaited call member _ awaits
    cases lookup.symm.trans lookup'
    have fresh : FreshFor system.bumps gen result.since := by
      rcases serving with leads | ⟨-, fresh⟩
      · have running : led.ended = false := by
          simp only [CacheCall.leading] at leads
          simp only [CacheCall.ended]
          split at leads <;> simp_all
        have pending := (dated.calls led (List.mem_of_getElem? lookup)).pending running
        cases future.symm.trans pending
      · exact fresh result future
    exact dated.goes found runs idle _ rfl rfl (dated.returns member runs read fresh)
  · cases resolved
    exact dated.lead found runs idle read

theorem Dated.genServed (dated : system.Dated deployment now)
    (found : system.calls[i]? = some call) (stage : call.stage = .askingGen) :
    (system.put i { call with stage := .askingEntry system.gen }).Dated deployment (now + 1) := by
  have member := List.mem_of_getElem? found
  have runs : call.ended = false := by simp only [CacheCall.ended, stage]
  have idle : call.leading = none := by simp only [CacheCall.leading, stage]
  refine dated.goes found runs idle _ rfl rfl ⟨?_, ?_, ?_, ?_, ?_⟩
  · exact Nat.lt_succ_of_lt (dated.calls call member).started
  · intro _
    exact (dated.calls call member).pending runs
  · intro gen read
    cases read
    exact ⟨Nat.le_refl _, fun bump listed _ _ _ => (dated.bumps bump listed).served⟩
  · intro gen read since held
    cases held
  · intro since given
    cases given

theorem Dated.entryServed (dated : system.Dated deployment now)
    (found : system.calls[i]? = some call) (stage : call.stage = .askingEntry gen) :
    (system.put i { call with
      stage := .fetched gen (system.entries.get (call.key deployment gen)) }).Dated deployment
        (now + 1) := by
  have runs : call.ended = false := by simp only [CacheCall.ended, stage]
  have idle : call.leading = none := by simp only [CacheCall.leading, stage]
  have read : call.read = some gen := by simp only [CacheCall.read, stage]
  refine dated.goes found runs idle _ rfl rfl
    (dated.reading (List.mem_of_getElem? found) runs read _ rfl rfl ?_)
  intro since held
  obtain ⟨entry, stored, rfl⟩ := Option.map_eq_some_iff.mp held
  exact (dated.entries _ entry stored gen _ _ rfl).2

theorem Dated.setServed (dated : system.Dated deployment now)
    (found : system.calls[i]? = some call) {result : Computed ν}
    (stage : call.stage = .storing gen result) (persisted : Bool) :
    ({ system.put i { call with stage := .stored gen result } with
      entries := if persisted then system.entries.set (call.key deployment gen) result
        else system.entries } : CacheSystem π ν).Dated deployment (now + 1) := by
  have member := List.mem_of_getElem? found
  have runs : call.ended = false := by simp only [CacheCall.ended, stage]
  have leads : call.leading = some gen := by simp only [CacheCall.leading, stage]
  have read : call.read = some gen := by simp only [CacheCall.read, stage]
  have held : call.holding = some result.since := by simp only [CacheCall.holding, stage]
  have fresh := (dated.calls call member).holds gen read result.since held
  have known : (system.put i { call with stage := .stored gen result }).Known deployment :=
    dated.toKnown.put found ⟨rfl, rfl, rfl⟩ leads.symm
  refine dated.change found runs ⟨known.listed⟩ rfl rfl rfl (Nat.le_succ _)
    (dated.reading member runs read _ rfl rfl ?_) ?_ ?_ ?_
  · intro since held'
    cases held'
    exact fresh
  · intro gen' leads'
    cases leads.symm.trans leads'
    exact .inl rfl
  · intro wait waiting
    cases waiting
  · intro key entry stored gen' endpoint params same
    cases persisted with
    | false => exact dated.entries key entry stored gen' endpoint params same
    | true =>
        simp only [↓reduceIte, OrderedMap.get_set] at stored
        split at stored
        · rename_i here
          cases stored
          have equal : gen = gen' := buildKey_inj (here.trans same)
          subst equal
          exact ⟨((dated.calls call member).reads gen read).1, fresh⟩
        · exact dated.entries key entry stored gen' endpoint params same

theorem Dated.cancel (dated : system.Dated deployment now)
    (found : system.calls[i]? = some call)
    (cancelled : system.cancel deployment i call = some next) :
    next.Dated deployment (now + 1) := by
  have member := List.mem_of_getElem? found
  have runs : call.ended = false := by
    simp only [CacheCall.ended]
    split
    · rename_i stage
      simp [CacheSystem.cancel, stage] at cancelled
    · rename_i stage
      simp [CacheSystem.cancel, stage] at cancelled
    · rename_i stage
      simp [CacheSystem.cancel, stage] at cancelled
    · rfl
  have staged := dated.unread member runs .cancelled rfl (by rintro _ ⟨⟩)
  rcases cancel_cases cancelled with ⟨gen, leads, rfl⟩ | ⟨idle, rfl⟩
  · refine dated.leave found leads runs ⟨rfl, rfl, rfl⟩ rfl rfl staged ?_
    intro result future
    cases future.symm.trans ((dated.calls call member).pending runs)
  · exact dated.goes found runs idle _ rfl rfl staged

theorem Dated.redisFails (dated : system.Dated deployment system.clock)
    (found : system.calls[i]? = some call) (runs : call.ended = false)
    (idle : call.leading = none) :
    (system.put i { call with stage := .bypassing system.clock }).Dated deployment
      (system.clock + 1) := by
  refine dated.goes found runs idle _ rfl rfl
    (dated.unread (List.mem_of_getElem? found) runs _ rfl ?_)
  intro since given bump listed _ _ _
  cases given
  exact Nat.le_of_lt (dated.bumps bump listed).began

/-- A leader that has computed goes on to store what is as fresh as its computation. -/
theorem Dated.computed (dated : system.Dated deployment now)
    (found : system.calls[i]? = some call) (stage : call.stage = .computing gen since)
    (value : ν) :
    (system.put i { call with stage := .storing gen ⟨value, since⟩ }).Dated deployment
      (now + 1) := by
  have member := List.mem_of_getElem? found
  have runs : call.ended = false := by simp only [CacheCall.ended, stage]
  have leads : call.leading = some gen := by simp only [CacheCall.leading, stage]
  have read : call.read = some gen := by simp only [CacheCall.read, stage]
  have held : call.holding = some since := by simp only [CacheCall.holding, stage]
  refine dated.change found runs (dated.toKnown.put found ⟨rfl, rfl, rfl⟩ leads.symm) rfl
    rfl rfl (Nat.le_succ _) (dated.reading member runs read _ rfl rfl ?_) ?_ ?_ dated.entries
  · intro since' held'
    cases held'
    exact (dated.calls call member).holds gen read since held
  · intro gen' leads'
    cases leads.symm.trans leads'
    exact .inl rfl
  · intro wait waiting
    cases waiting

theorem Dated.bypassed (dated : system.Dated deployment now)
    (found : system.calls[i]? = some call) (stage : call.stage = .bypassing since) (value : ν) :
    (system.put i { call with stage := .returned ⟨value, since⟩ }).Dated deployment
      (now + 1) := by
  have member := List.mem_of_getElem? found
  have runs : call.ended = false := by simp only [CacheCall.ended, stage]
  have idle : call.leading = none := by simp only [CacheCall.leading, stage]
  have given : call.gives = some since := by simp only [CacheCall.gives, stage]
  refine dated.goes found runs idle _ rfl rfl (dated.unread member runs _ rfl ?_)
  intro since' given'
  cases given'
  exact (dated.calls call member).gives since given

theorem Dated.finishes (dated : system.Dated deployment now)
    (found : system.calls[i]? = some call) {result : Computed ν}
    (stage : call.stage = .stored gen result) :
    (system.leave deployment i
      { call with stage := .returned result, future := .result result } gen).Dated deployment
        (now + 1) := by
  have member := List.mem_of_getElem? found
  have runs : call.ended = false := by simp only [CacheCall.ended, stage]
  have leads : call.leading = some gen := by simp only [CacheCall.leading, stage]
  have read : call.read = some gen := by simp only [CacheCall.read, stage]
  have held : call.holding = some result.since := by simp only [CacheCall.holding, stage]
  have fresh := (dated.calls call member).holds gen read result.since held
  have returns := dated.returns member runs read fresh
  refine dated.leave found leads runs ⟨rfl, rfl, rfl⟩ rfl rfl
    (dated_of_unread returns.started (by rintro ⟨⟩) rfl returns.gives) ?_
  intro result' future
  cases future
  exact fresh

theorem Dated.advance (dated : system.Dated deployment system.clock)
    (found : system.calls[i]? = some call) (party : event.party = some i)
    (advanced : GraphCache.advance deployment system i call event = some next) :
    next.Dated deployment (system.clock + 1) := by
  cases event <;> cases party
  case genServed =>
    simp only [GraphCache.advance] at advanced
    split at advanced <;> cases advanced
    rename_i stage
    exact dated.genServed found stage
  case entryServed =>
    simp only [GraphCache.advance] at advanced
    split at advanced <;> cases advanced
    rename_i stage
    exact dated.entryServed found stage
  case redisFails =>
    simp only [GraphCache.advance] at advanced
    split at advanced <;> cases advanced
    · rename_i stage
      exact dated.redisFails found (by simp only [CacheCall.ended, stage])
        (by simp only [CacheCall.leading, stage])
    · rename_i stage
      exact dated.redisFails found (by simp only [CacheCall.ended, stage])
        (by simp only [CacheCall.leading, stage])
  case resumes readable =>
    simp only [GraphCache.advance] at advanced
    split at advanced <;> cases advanced
    rename_i stage
    exact dated.resume found stage readable
  case computed value =>
    simp only [GraphCache.advance] at advanced
    split at advanced <;> cases advanced
    · rename_i stage
      exact dated.computed found stage value
    · rename_i stage
      exact dated.bypassed found stage value
  case raises =>
    have member := List.mem_of_getElem? found
    simp only [GraphCache.advance] at advanced
    split at advanced <;> cases advanced
    · rename_i gen since stage
      have runs : call.ended = false := by simp only [CacheCall.ended, stage]
      have leads : call.leading = some gen := by simp only [CacheCall.leading, stage]
      have started := Nat.lt_succ_of_lt (dated.calls call member).started
      exact dated.leave found leads runs ⟨rfl, rfl, rfl⟩ rfl rfl
        (dated_of_unread started (by rintro ⟨⟩) rfl (by rintro _ ⟨⟩)) (by rintro _ ⟨⟩)
    · rename_i stage
      have runs : call.ended = false := by simp only [CacheCall.ended, stage]
      exact dated.goes found runs (by simp only [CacheCall.leading, stage]) _ rfl rfl
        (dated.unread member runs _ rfl (by rintro _ ⟨⟩))
  case setServed persisted =>
    simp only [GraphCache.advance] at advanced
    split at advanced <;> cases advanced
    rename_i stage
    exact dated.setServed found stage persisted
  case finishes =>
    simp only [GraphCache.advance] at advanced
    split at advanced <;> cases advanced
    rename_i stage
    exact dated.finishes found stage
  case released =>
    simp only [GraphCache.advance] at advanced
    split at advanced
    · rename_i stage
      exact dated.release found stage advanced
    · cases advanced
  case cancelled => exact dated.cancel found advanced

theorem Dated.called (dated : system.Dated deployment now)
    (new : call.Dated system.bumps system.gen (now + 1)) (settled : call.awaits = none) :
    ({ system with calls := system.calls ++ [call] } : CacheSystem π ν).Dated deployment
      (now + 1) where
  toKnown := dated.toKnown.called call
  bumps := by
    intro bump listed
    obtain ⟨began, served, returned⟩ := dated.bumps bump listed
    refine ⟨Nat.lt_succ_of_lt began, served, ?_⟩
    intro time answered
    obtain ⟨past, rest⟩ := returned time answered
    exact ⟨Nat.lt_succ_of_lt past, rest⟩
  calls := by
    intro other member
    rcases List.mem_append.mp member with earlier | last
    · obtain ⟨started, pending, reads, holds, gives⟩ := dated.calls other earlier
      exact ⟨Nat.lt_succ_of_lt started, pending, reads, holds, gives⟩
    · rw [List.mem_singleton.mp last]
      exact new
  awaited := by
    intro other member wait waiting
    rcases List.mem_append.mp member with earlier | last
    · obtain ⟨led, lookup, serving⟩ := dated.awaited other earlier wait waiting
      exact ⟨led, getElem?_concat lookup, serving⟩
    · rw [List.mem_singleton.mp last] at waiting
      cases settled.symm.trans waiting
  entries := dated.entries

/-- What a step of a bump leaves: a bump under a generation that was there before had begun
when it did before, and one that has returned before was there. -/
structure Follows (now current : Nat) (bumps bumps' : List Bump) : Prop where
  served : ∀ bump' ∈ bumps', ∀ n ∈ bump'.gen, n ≤ current →
    ∃ bump ∈ bumps, bump.beganAt = bump'.beganAt ∧ bump.gen = some n
  returned : ∀ bump' ∈ bumps', ∀ time ∈ bump'.returnedAt, time < now → bump' ∈ bumps

theorem Follows.fresh {current : Nat} (follows : Follows now current bumps bumps')
    (known : gen ≤ current) (fresh : FreshFor bumps gen since) : FreshFor bumps' gen since := by
  intro bump' listed n served below
  obtain ⟨bump, former, began, served'⟩ :=
    follows.served bump' listed n served (Nat.le_trans below known)
  rw [← began]
  exact fresh bump former n served' below

theorem Dated.bumped (dated : system.Dated deployment now) {current : Nat}
    (follows : Follows now system.gen system.bumps bumps') (grows : system.gen ≤ current)
    (bumps : ∀ bump ∈ bumps', bump.Dated current (now + 1)) :
    ({ system with gen := current, bumps := bumps' } : CacheSystem π ν).Dated deployment
      (now + 1) where
  listed := dated.listed
  bumps := bumps
  calls := by
    intro call member
    obtain ⟨started, pending, reads, holds, gives⟩ := dated.calls call member
    refine ⟨Nat.lt_succ_of_lt started, pending, ?_, ?_, ?_⟩
    · intro gen read
      obtain ⟨known, earlier⟩ := reads gen read
      refine ⟨Nat.le_trans known grows, ?_⟩
      intro bump listed returned answered before
      have former := follows.returned bump listed returned answered (Nat.lt_trans before started)
      exact earlier bump former returned answered before
    · intro gen read since held
      exact follows.fresh (reads gen read).1 (holds gen read since held)
    · intro since given bump listed returned answered before
      have former := follows.returned bump listed returned answered (Nat.lt_trans before started)
      exact gives since given bump former returned answered before
  awaited := by
    intro call member wait waiting
    obtain ⟨led, lookup, serving⟩ := dated.awaited call member wait waiting
    have read : call.read = some wait.1 := by
      simp only [CacheCall.awaits] at waiting
      split at waiting
      · rename_i stage
        cases waiting
        simp only [CacheCall.read, stage]
      · cases waiting
    refine ⟨led, lookup, serving.imp_right ?_⟩
    rintro ⟨ended, fresh⟩
    refine ⟨ended, ?_⟩
    intro result future
    exact follows.fresh ((dated.calls call member).reads wait.1 read).1 (fresh result future)
  entries := by
    intro key entry stored gen endpoint params same
    obtain ⟨known, fresh⟩ := dated.entries key entry stored gen endpoint params same
    exact ⟨Nat.le_trans known grows, follows.fresh known fresh⟩

theorem Bump.Dated.later {bump : Bump} {current : Nat} (dated : bump.Dated gen now)
    (grows : gen ≤ current) : bump.Dated current (now + 1) := by
  refine ⟨Nat.lt_succ_of_lt dated.began, ?_, ?_⟩
  · intro n served
    exact Nat.le_trans (dated.served n served) grows
  · intro time answered
    obtain ⟨past, rest⟩ := dated.returned time answered
    exact ⟨Nat.lt_succ_of_lt past, rest⟩

theorem Dated.bump (dated : system.Dated deployment now) :
    ({ system with bumps := system.bumps ++ [{ beganAt := now }] } : CacheSystem π ν).Dated
      deployment (now + 1) := by
  refine dated.bumped ⟨?_, ?_⟩ (Nat.le_refl _) ?_
  · intro bump listed n served _
    rcases List.mem_append.mp listed with former | last
    · exact ⟨bump, former, rfl, served⟩
    · rw [List.mem_singleton.mp last] at served
      cases served
  · intro bump listed time answered _
    rcases List.mem_append.mp listed with former | last
    · exact former
    · rw [List.mem_singleton.mp last] at answered
      cases answered
  · intro bump listed
    rcases List.mem_append.mp listed with former | last
    · exact Bump.Dated.later (dated.bumps bump former) (Nat.le_refl _)
    · rw [List.mem_singleton.mp last]
      exact ⟨Nat.lt_succ_self now, by rintro _ ⟨⟩, by rintro _ ⟨⟩⟩

theorem Dated.bumpServed (dated : system.Dated deployment now) {b : Nat} {bump : Bump}
    (found : system.bumps[b]? = some bump) (waiting : bump.returnedAt = none) :
    ({ system with
        gen := system.gen + 1
        bumps := system.bumps.set b { bump with gen := some (system.gen + 1) }
        } : CacheSystem π ν).Dated deployment (now + 1) := by
  have listed := List.mem_of_getElem? found
  refine dated.bumped ⟨?_, ?_⟩ (Nat.le_succ _) ?_
  · intro bump' member n served below
    rcases List.mem_or_eq_of_mem_set member with former | rfl
    · exact ⟨bump', former, rfl, served⟩
    · cases served
      omega
  · intro bump' member time answered _
    rcases List.mem_or_eq_of_mem_set member with former | rfl
    · exact former
    · cases waiting.symm.trans answered
  · intro bump' member
    rcases List.mem_or_eq_of_mem_set member with former | rfl
    · exact Bump.Dated.later (dated.bumps bump' former) (Nat.le_succ _)
    · refine ⟨Nat.lt_succ_of_lt (dated.bumps bump listed).began, ?_, ?_⟩
      · intro n served
        cases served
        exact Nat.le_refl _
      · intro time answered
        cases waiting.symm.trans answered

theorem Dated.bumpReturns (dated : system.Dated deployment now) {b : Nat} {bump : Bump}
    (found : system.bumps[b]? = some bump) (served : bump.gen ≠ none) :
    ({ system with
        bumps := system.bumps.set b { bump with returnedAt := some now }
        } : CacheSystem π ν).Dated deployment (now + 1) := by
  have listed := List.mem_of_getElem? found
  have began := (dated.bumps bump listed).began
  refine dated.bumped ⟨?_, ?_⟩ (Nat.le_refl _) ?_
  · intro bump' member n served' below
    rcases List.mem_or_eq_of_mem_set member with former | rfl
    · exact ⟨bump', former, rfl, served'⟩
    · exact ⟨bump, listed, rfl, served'⟩
  · intro bump' member time answered before
    rcases List.mem_or_eq_of_mem_set member with former | rfl
    · exact former
    · cases answered
      exact absurd before (Nat.lt_irrefl _)
  · intro bump' member
    rcases List.mem_or_eq_of_mem_set member with former | rfl
    · exact Bump.Dated.later (dated.bumps bump' former) (Nat.le_refl _)
    · refine ⟨Nat.lt_succ_of_lt began, (dated.bumps bump listed).served, ?_⟩
      intro time answered
      cases answered
      exact ⟨Nat.lt_succ_self _, Nat.le_of_lt began, served⟩

theorem Dated.act (dated : system.Dated deployment system.clock)
    (answered : ∀ b, event ≠ .bumpFails b)
    (acted : GraphCache.act deployment system event = some next) :
    next.Dated deployment (system.clock + 1) := by
  have party : ∀ {i}, event.party = some i →
      (event.party.bind fun i => system.calls[i]?.bind fun call =>
        GraphCache.advance deployment system i call event) = some next →
      next.Dated deployment (system.clock + 1) := by
    intro i party acted
    simp only [party, Option.bind_some] at acted
    obtain ⟨call, found, advanced⟩ := Option.bind_eq_some_iff.mp acted
    exact dated.advance found party advanced
  cases event with
  | call process endpoint params =>
      cases acted
      refine dated.called ⟨Nat.lt_succ_self _, fun _ => rfl, ?_, ?_, ?_⟩ (by split <;> rfl)
      · intro gen read
        split at read <;> cases read
      · intro gen read
        split at read <;> cases read
      · intro since given bump listed returned answered' before
        split at given <;> cases given
        exact Nat.le_of_lt (dated.bumps bump listed).began
  | expires key =>
      cases acted
      have same : Follows system.clock system.gen system.bumps system.bumps :=
        ⟨fun bump listed n served _ => ⟨bump, listed, rfl, served⟩, fun _ listed _ _ _ => listed⟩
      obtain ⟨known, bumps, calls, awaited, entries⟩ := dated.bumped same (Nat.le_refl _)
        fun bump listed => Bump.Dated.later (dated.bumps bump listed) (Nat.le_refl _)
      refine ⟨⟨known.listed⟩, bumps, calls, awaited, ?_⟩
      intro key' entry stored
      rw [OrderedMap.get_erase] at stored
      split at stored
      · cases stored
      · exact entries key' entry stored
  | bump =>
      cases acted
      exact dated.bump
  | bumpServed b =>
      obtain ⟨bump, waiting, rfl⟩ := Option.map_eq_some_iff.mp acted
      obtain ⟨found, unserved⟩ := Option.filter_eq_some_iff.mp waiting
      simp only [Bool.decide_and, Bool.and_eq_true, decide_eq_true_eq,
        Option.isNone_iff_eq_none] at unserved
      exact dated.bumpServed found unserved.2
  | bumpFails b => exact absurd rfl (answered b)
  | bumpReturns b =>
      obtain ⟨bump, waiting, rfl⟩ := Option.map_eq_some_iff.mp acted
      obtain ⟨found, served⟩ := Option.filter_eq_some_iff.mp waiting
      simp only [Bool.decide_and, Bool.and_eq_true, decide_eq_true_eq] at served
      exact dated.bumpReturns found (Option.isSome_iff_ne_none.mp served.1)
  | _ => exact party rfl acted

theorem Dated.fresh (dated : system.Dated deployment now) : system.Fresh := by
  intro call member result returned
  refine (dated.calls call member).gives result.since ?_
  simp only [CacheCall.gives, returned, Option.mem_def]

theorem dated_start : ({} : CacheSystem π ν).Dated deployment 0 where
  listed _ _ _ none := by cases none
  bumps _ none := by cases none
  calls _ none := by cases none
  awaited _ none := by cases none
  entries _ _ none := by cases none

/-- Unless a bump fails, no call gives what is older than a bump that had returned. -/
theorem run_fresh {events : List (CacheEvent π ν)} {last : CacheSystem π ν}
    (answered : ∀ event ∈ events, ∀ b, event ≠ .bumpFails b)
    (ran : run (step deployment) {} events = some last) : last.Fresh := by
  have free : Meets (step deployment) (fun _ event => ∀ b, event ≠ .bumpFails b) {} events :=
    meets_of_forall fun event member _ => answered event member
  let invariant (system : CacheSystem π ν) := system.Dated deployment system.clock
  refine Dated.fresh (run_invariant invariant ?_ dated_start free ran)
  intro system event next dated answered stepped
  obtain ⟨acted, happened, rfl⟩ := Option.map_eq_some_iff.mp stepped
  have dated' := dated.act answered happened
  exact ⟨⟨dated'.listed⟩, dated'.bumps, dated'.calls, dated'.awaited, dated'.entries⟩

def twoProcesses : Deployment Unit := ⟨⟨"finance", "lake"⟩, fun _ => true, fun _ => "digest"⟩

/-- A computation of the first process ends after a bump; then the second process calls. -/
def slowCompute : List (CacheEvent Unit Nat) :=
  [.call 0 "aggregated" (), .genServed 0, .entryServed 0, .resumes 0 true,
    .bump, .bumpServed 0, .bumpReturns 0, .computed 0 1, .setServed 0 true, .finishes 0,
    .call 1 "aggregated" (), .genServed 1, .entryServed 1, .resumes 1 true, .computed 1 2,
    .setServed 1 true, .finishes 1]

theorem slowCompute_fresh : ∃ last : CacheSystem Unit Nat,
    run (step twoProcesses) {} slowCompute = some last ∧ last.entries.size = 2 ∧ last.Fresh := by
  have ended : (run (step twoProcesses) ({} : CacheSystem Unit Nat) slowCompute).map
      (fun last => last.entries.size) = some 2 := by decide +kernel
  obtain ⟨last, ran, entries⟩ := Option.map_eq_some_iff.mp ended
  refine ⟨last, ran, entries, run_fresh ?_ ran⟩
  intro event listed b same
  subst same
  simp [slowCompute] at listed

end CacheSystem

end Univiz.GraphCache
