import Univiz.GraphCache.Calls

namespace Univiz.GraphCache

open Univiz.Data

/-! The in-flight maps list leading calls only. -/

variable {π ν : Type} {deployment : Deployment π} {system : CacheSystem π ν}
  {call call' : CacheCall π ν} {i gen : Nat}

/-- The generation for which a call computes, or stores what it has computed. -/
def CacheCall.leading (call : CacheCall π ν) : Option Nat :=
  match call.stage with
  | .computing gen _ | .storing gen _ | .stored gen _ => some gen
  | _ => none

/-- The generation of a waiting call with its leader. -/
def CacheCall.awaits (call : CacheCall π ν) : Option (Nat × Nat) :=
  match call.stage with
  | .waiting gen leader => some (gen, leader)
  | _ => none

structure CacheSystem.Known (deployment : Deployment π) (system : CacheSystem π ν) : Prop where
  listed : ∀ process key i, system.inflight.get (process, key) = some i →
    ∃ (call : CacheCall π ν) (gen : Nat), system.calls[i]? = some call ∧
      call.leading = some gen ∧ call.process = process ∧ call.key deployment gen = key

namespace CacheSystem

/-- The call is the same but for its stage and future. -/
structure Continues (call call' : CacheCall π ν) : Prop where
  process : call'.process = call.process
  endpoint : call'.endpoint = call.endpoint
  params : call'.params = call.params

theorem Continues.key (continues : Continues call call') :
    call'.key deployment gen = call.key deployment gen := by
  rw [CacheCall.key, CacheCall.key, continues.endpoint, continues.params]

theorem Known.put (known : system.Known deployment) (found : system.calls[i]? = some call)
    (continues : Continues call call') (leads : call'.leading = call.leading) :
    (system.put i call').Known deployment := by
  refine ⟨?_⟩
  intro process key j inflight
  obtain ⟨other, gen, lookup, leading, owner⟩ := known.listed process key j inflight
  by_cases same : i = j
  · subst same
    cases found.symm.trans lookup
    have inside := (List.getElem?_eq_some_iff.mp found).1
    refine ⟨call', gen, List.getElem?_set_self inside, leads.trans leading, ?_⟩
    rwa [continues.process, continues.key]
  · exact ⟨other, gen, (List.getElem?_set_ne same).trans lookup, leading, owner⟩

theorem Known.lead (known : system.Known deployment) (found : system.calls[i]? = some call)
    (idle : call.leading = none) : (system.lead deployment i call gen).Known deployment := by
  let leader : CacheCall π ν := { call with stage := .computing gen system.clock }
  have inside := (List.getElem?_eq_some_iff.mp found).1
  refine ⟨?_⟩
  intro process key j inflight
  simp only [CacheSystem.lead, OrderedMap.get_set] at inflight
  split at inflight
  · rename_i same
    cases same
    cases inflight
    exact ⟨leader, gen, List.getElem?_set_self inside, rfl, rfl, rfl⟩
  · obtain ⟨other, gen', lookup, leading, owner⟩ := known.listed process key j inflight
    have apart : i ≠ j := by
      intro same
      subst same
      cases found.symm.trans lookup
      cases idle.symm.trans leading
    exact ⟨other, gen', (List.getElem?_set_ne apart).trans lookup, leading, owner⟩

theorem Known.leave (known : system.Known deployment) (found : system.calls[i]? = some call)
    (leads : call.leading = some gen) (continues : Continues call call') :
    (system.leave deployment i call' gen).Known deployment := by
  refine ⟨?_⟩
  intro process key j inflight
  simp only [CacheSystem.leave, OrderedMap.get_erase, continues.process,
    continues.key] at inflight
  split at inflight
  · cases inflight
  · rename_i differs
    obtain ⟨other, gen', lookup, leading, owner⟩ := known.listed process key j inflight
    have apart : i ≠ j := by
      intro same
      subst same
      cases found.symm.trans lookup
      cases leads.symm.trans leading
      exact differs (Prod.ext owner.1 owner.2)
    exact ⟨other, gen', (List.getElem?_set_ne apart).trans lookup, leading, owner⟩

theorem Known.called (known : system.Known deployment) (call : CacheCall π ν) :
    ({ system with calls := system.calls ++ [call] } : CacheSystem π ν).Known deployment := by
  refine ⟨?_⟩
  intro process key i inflight
  obtain ⟨other, gen, lookup, rest⟩ := known.listed process key i inflight
  exact ⟨other, gen, getElem?_concat lookup, rest⟩

theorem cancel_cases {next : CacheSystem π ν}
    (cancelled : system.cancel deployment i call = some next) :
    (∃ gen, call.leading = some gen ∧
        next = system.leave deployment i { call with stage := .cancelled } gen) ∨
      call.leading = none ∧ next = system.put i { call with stage := .cancelled } := by
  simp only [CacheSystem.cancel] at cancelled
  split at cancelled <;> try cases cancelled
  · rename_i gen _ stage
    exact .inl ⟨gen, by simp only [CacheCall.leading, stage], rfl⟩
  · rename_i gen _ stage
    exact .inl ⟨gen, by simp only [CacheCall.leading, stage], rfl⟩
  · rename_i gen _ stage
    exact .inl ⟨gen, by simp only [CacheCall.leading, stage], rfl⟩
  · rename_i computing storing stored
    refine .inr ⟨?_, rfl⟩
    simp only [CacheCall.leading]

end CacheSystem

end Univiz.GraphCache
