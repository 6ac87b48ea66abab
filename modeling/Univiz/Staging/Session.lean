import Univiz.Data.Transition
import Univiz.Staging.Store

namespace Univiz.Staging

open Univiz.Data

/-! What the user does and what the calls of `applyAll` do, in any order.  Between two
awaits nothing else runs, so what a call does there is one step. -/

/-- A staged change for the records: the staging call that its content is from, with the
hook that it has. -/
abbrev Token := Nat × Option Hook

instance : LawfulBEq Token := inferInstance

def StagedChange.token (change : StagedChange) : Token := (change.edit, change.apply)

/-- The store and the calls of `applyAll`, with a record of what has been staged, of what
the user has discarded, replaced, or given up in the redo stack, and of the hooks that have
succeeded. -/
structure Session where
  store : Store
  runs : List Run
  edits : Nat
  staged : List Token
  released : List Token
  succeeded : List Hook

/-- A staging call says what time it is, and a hook that ends says which temp ids it has
registered and whether it has failed. -/
inductive Event where
  | stage (input : Input) (now : Nat)
  | stageOrReplace (matcher : StagedChange → Bool) (input : Input) (now : Nat)
  | discard (changeId : Nat)
  | discardAll
  | undo
  | redo
  | applyAll
  | settle (run : Nat) (registered : List (String × String)) (error : Option String)

namespace Session

def empty : Session := ⟨.empty, [], 0, [], [], []⟩

def tokens (changes : List StagedChange) : List Token := changes.map StagedChange.token

def stage (session : Session) (input : Input) (now : Nat) : Session :=
  { session with
    store := session.store.stage input session.edits now
    edits := session.edits + 1
    staged := session.staged ++ [(StagedChange.staged input session.edits now).token]
    released := session.released ++ tokens session.store.redoStack }

def stageOrReplace (session : Session) (matcher : StagedChange → Bool) (input : Input)
    (now : Nat) : Session :=
  match session.store.changes.find? matcher with
  | some existing =>
      let replaced := session.store.changes.filter fun change => change.id = existing.id
      { session with
        store := session.store.stageOrReplace matcher input session.edits now
        edits := session.edits + 1
        staged := session.staged ++
          tokens (replaced.map fun change => change.replaced input session.edits now)
        released := session.released ++ tokens replaced }
  | none => session.stage input now

def discard (session : Session) (changeId : Nat) : Session :=
  { session with
    store := session.store.discard changeId
    released := session.released ++
      tokens (session.store.changes.filter fun change => change.id = changeId) }

def discardAll (session : Session) : Session :=
  { session with
    store := session.store.discardAll
    released := session.released ++ tokens session.store.changes ++
      tokens session.store.redoStack }

def undo (session : Session) : Session := { session with store := session.store.undo }

def redo (session : Session) : Session := { session with store := session.store.redo }

def applyAll (session : Session) : Session :=
  if session.store.changes = [] then session
  else
    let run := Run.start session.store.changes
    { session with
      store := { session.store with applyStatus := .applying }.finish run
      runs := session.runs ++ [run] }

/-- The hooks that have succeeded when an awaited one has ended. -/
def succeededAfter (succeeded : List Hook) (change : StagedChange) (error : Option String) :
    List Hook :=
  if error.isNone then succeeded ++ change.apply.toList else succeeded

/-- A run goes on when the hook that it awaits has ended. -/
def settle (session : Session) (i : Nat) (registered : List (String × String))
    (error : Option String) : Option Session :=
  match session.runs[i]? with
  | none => none
  | some run =>
      match run.pending with
      | [] => none
      | change :: rest =>
          let settled := run.settle change rest registered error
          some
            { session with
              store := session.store.finish settled
              runs := session.runs.set i settled
              succeeded := succeededAfter session.succeeded change error }

def step (session : Session) : Event → Option Session
  | .stage input now => some (session.stage input now)
  | .stageOrReplace matcher input now => some (session.stageOrReplace matcher input now)
  | .discard changeId => some (session.discard changeId)
  | .discardAll => some session.discardAll
  | .undo => some session.undo
  | .redo => some session.redo
  | .applyAll => some session.applyAll
  | .settle run registered error => session.settle run registered error

theorem settle_cases {session next : Session} {i : Nat} {registered : List (String × String)}
    {error : Option String} (settled : session.settle i registered error = some next) :
    ∃ run change rest, session.runs[i]? = some run ∧ run.pending = change :: rest ∧
      next = { session with
        store := session.store.finish (run.settle change rest registered error)
        runs := session.runs.set i (run.settle change rest registered error)
        succeeded := succeededAfter session.succeeded change error } := by
  unfold settle at settled
  split at settled
  · cases settled
  · rename_i run lookup
    split at settled
    · cases settled
    · rename_i change rest pending
      cases settled
      exact ⟨run, change, rest, lookup, pending, rfl⟩

end Session

end Univiz.Staging
