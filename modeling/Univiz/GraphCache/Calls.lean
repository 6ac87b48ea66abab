import Univiz.Data.OrderedMap
import Univiz.Data.Transition

namespace Univiz.GraphCache

open Univiz.Data

/-! Calls of `get_or_compute` and `bump_generation` on one scope, in any number of
processes that share one Redis.  A call goes on between its awaits without interruption;
what Redis, the computation and the scheduler do is part of the events. -/

structure CacheScope where
  workspaceId : String
  dataSourceId : String := ""

/-- What the processes agree on: the scope, the enabled endpoints, and the digest of the
parameters of type `π`. -/
structure Deployment (π : Type) where
  scope : CacheScope
  enabled : String → Bool
  digest : π → String

def keyPrefix : String := "graphcache:v1"

def buildKey (scope : CacheScope) (gen : Nat) (endpoint digest : String) : String :=
  keyPrefix ++ ":" ++ scope.workspaceId ++ ":" ++ scope.dataSourceId ++ ":" ++ gen.repr ++ ":" ++
    endpoint ++ ":" ++ digest

/-- A result with the time at which its computation began. -/
structure Computed (ν : Type) where
  value : ν
  since : Nat

inductive FutureState (ν : Type)
  | pending
  | result (result : Computed ν)
  | exception

/-- How far a call is, with the generation it has read. -/
inductive Stage (ν : Type)
  | askingGen
  | askingEntry (gen : Nat)
  | fetched (gen : Nat) (cached : Option (Computed ν))
  | waiting (gen leader : Nat)
  | computing (gen since : Nat)
  | storing (gen : Nat) (result : Computed ν)
  | stored (gen : Nat) (result : Computed ν)
  | bypassing (since : Nat)
  | returned (result : Computed ν)
  | raised
  | cancelled

/-- A call, and the future it has created if it leads or has led. -/
structure CacheCall (π ν : Type) where
  process : Nat
  endpoint : String
  params : π
  startedAt : Nat
  stage : Stage ν
  future : FutureState ν := .pending

structure Bump where
  beganAt : Nat
  gen : Option Nat := none
  returnedAt : Option Nat := none

/-- The generation and the entries in Redis, the in-flight maps of the processes, the
calls and bumps so far, and a clock that counts the events. -/
structure CacheSystem (π ν : Type) where
  clock : Nat := 0
  gen : Nat := 0
  entries : OrderedMap String (Computed ν) := ⟨[], List.nodup_nil⟩
  inflight : OrderedMap (Nat × String) Nat := ⟨[], List.nodup_nil⟩
  calls : List (CacheCall π ν) := []
  bumps : List Bump := []

variable {π ν : Type}

def CacheCall.key (deployment : Deployment π) (call : CacheCall π ν) (gen : Nat) : String :=
  buildKey deployment.scope gen call.endpoint (deployment.digest call.params)

namespace CacheSystem

variable (deployment : Deployment π) (system : CacheSystem π ν)

def put (i : Nat) (call : CacheCall π ν) : CacheSystem π ν :=
  { system with calls := system.calls.set i call }

/-- The call creates a future, enters it in the map and starts to compute. -/
def lead (i : Nat) (call : CacheCall π ν) (gen : Nat) : CacheSystem π ν :=
  { system.put i { call with stage := .computing gen system.clock } with
    inflight := system.inflight.set (call.process, call.key deployment gen) i }

/-- The call leaves through `finally`, which takes out whatever is under the key. -/
def leave (i : Nat) (call : CacheCall π ν) (gen : Nat) : CacheSystem π ν :=
  { system.put i call with
    inflight := system.inflight.erase (call.process, call.key deployment gen) }

/-- The reply to GET has come: a readable entry is returned, else the call waits for a
future that is in flight, else it leads. -/
def resume (i : Nat) (call : CacheCall π ν) (gen : Nat) (cached : Option (Computed ν))
    (readable : Bool) : CacheSystem π ν :=
  match cached.filter fun _ => readable with
  | some result => system.put i { call with stage := .returned result }
  | none =>
      match system.inflight.get (call.process, call.key deployment gen) with
      | some leader => system.put i { call with stage := .waiting gen leader }
      | none => system.lead deployment i call gen

/-- The future of the leader is done.  After an exception the call leads in its turn. -/
def release (i : Nat) (call : CacheCall π ν) (gen leader : Nat) : Option (CacheSystem π ν) :=
  system.calls[leader]?.bind fun led =>
    match led.future with
    | .pending => none
    | .result result => some (system.put i { call with stage := .returned result })
    | .exception => some (system.lead deployment i call gen)

/-- Where a cancellation reaches a call: a leader does not resolve its future. -/
def cancel (i : Nat) (call : CacheCall π ν) : Option (CacheSystem π ν) :=
  let ended : CacheCall π ν := { call with stage := .cancelled }
  match call.stage with
  | .returned _ | .raised | .cancelled => none
  | .computing gen _ | .storing gen _ | .stored gen _ =>
      some (system.leave deployment i ended gen)
  | _ => some (system.put i ended)

end CacheSystem

inductive CacheEvent (π ν : Type)
  | call (process : Nat) (endpoint : String) (params : π)
  | genServed (i : Nat)
  | entryServed (i : Nat)
  | redisFails (i : Nat)
  | resumes (i : Nat) (readable : Bool)
  | computed (i : Nat) (value : ν)
  | raises (i : Nat)
  | setServed (i : Nat) (persisted : Bool)
  | finishes (i : Nat)
  | released (i : Nat)
  | cancelled (i : Nat)
  | expires (key : String)
  | bump
  | bumpServed (b : Nat)
  | bumpFails (b : Nat)
  | bumpReturns (b : Nat)

/-- One event of one call. -/
def advance (deployment : Deployment π) (system : CacheSystem π ν) (i : Nat)
    (call : CacheCall π ν) : CacheEvent π ν → Option (CacheSystem π ν)
  | .genServed _ =>
      match call.stage with
      | .askingGen => some (system.put i { call with stage := .askingEntry system.gen })
      | _ => none
  | .entryServed _ =>
      match call.stage with
      | .askingEntry gen =>
          let cached := system.entries.get (call.key deployment gen)
          some (system.put i { call with stage := .fetched gen cached })
      | _ => none
  | .redisFails _ =>
      match call.stage with
      | .askingGen | .askingEntry _ =>
          some (system.put i { call with stage := .bypassing system.clock })
      | _ => none
  | .resumes _ readable =>
      match call.stage with
      | .fetched gen cached => some (system.resume deployment i call gen cached readable)
      | _ => none
  | .computed _ value =>
      match call.stage with
      | .computing gen since =>
          some (system.put i { call with stage := .storing gen ⟨value, since⟩ })
      | .bypassing since => some (system.put i { call with stage := .returned ⟨value, since⟩ })
      | _ => none
  | .raises _ =>
      match call.stage with
      | .computing gen _ =>
          some (system.leave deployment i { call with stage := .raised, future := .exception } gen)
      | .bypassing _ => some (system.put i { call with stage := .raised })
      | _ => none
  | .setServed _ persisted =>
      match call.stage with
      | .storing gen result =>
          let entries := if persisted then system.entries.set (call.key deployment gen) result
            else system.entries
          some { system.put i { call with stage := .stored gen result } with entries }
      | _ => none
  | .finishes _ =>
      match call.stage with
      | .stored gen result =>
          let ended : CacheCall π ν :=
            { call with stage := .returned result, future := .result result }
          some (system.leave deployment i ended gen)
      | _ => none
  | .released _ =>
      match call.stage with
      | .waiting gen leader => system.release deployment i call gen leader
      | _ => none
  | .cancelled _ => system.cancel deployment i call
  | _ => none

def CacheEvent.party : CacheEvent π ν → Option Nat
  | .genServed i | .entryServed i | .redisFails i | .resumes i _ | .computed i _ | .raises i
  | .setServed i _ | .finishes i | .released i | .cancelled i => some i
  | _ => none

def act (deployment : Deployment π) (system : CacheSystem π ν) (event : CacheEvent π ν) :
    Option (CacheSystem π ν) :=
  match event with
  | .call process endpoint params =>
      let stage := if deployment.enabled endpoint then .askingGen else .bypassing system.clock
      some { system with
        calls := system.calls ++ [{ process, endpoint, params, startedAt := system.clock, stage }] }
  | .expires key => some { system with entries := system.entries.erase key }
  | .bump => some { system with bumps := system.bumps ++ [{ beganAt := system.clock }] }
  | .bumpServed b =>
      (system.bumps[b]?.filter fun bump => bump.gen.isNone ∧ bump.returnedAt.isNone).map
        fun bump => { system with
          gen := system.gen + 1
          bumps := system.bumps.set b { bump with gen := some (system.gen + 1) } }
  | .bumpFails b =>
      (system.bumps[b]?.filter fun bump => bump.gen.isNone ∧ bump.returnedAt.isNone).map
        fun bump => { system with
          bumps := system.bumps.set b { bump with returnedAt := some system.clock } }
  | .bumpReturns b =>
      (system.bumps[b]?.filter fun bump => bump.gen.isSome ∧ bump.returnedAt.isNone).map
        fun bump => { system with
          bumps := system.bumps.set b { bump with returnedAt := some system.clock } }
  | event => event.party.bind fun i =>
      system.calls[i]?.bind fun call => advance deployment system i call event

def step (deployment : Deployment π) (system : CacheSystem π ν) (event : CacheEvent π ν) :
    Option (CacheSystem π ν) :=
  (act deployment system event).map fun next => { next with clock := system.clock + 1 }

end Univiz.GraphCache
