import Mathlib.Data.List.Sort
import Mathlib.Data.List.TakeWhile
import Mathlib.Logic.Function.Basic

namespace Univiz.Staging

/-! The store of staged changes.  The discard hooks act on other stores only, and what
they raise is caught, so they do not occur here. -/

inductive StagedChangeType where
  | createEntity
  | renameEntity
  | updateEntity
  | deleteEntity
  | assignLayer
  | moveToLayer
  | createEdge
  | editEdge
  | deleteEdge
  | reverseEdge
deriving DecidableEq, Repr

def applyOrderGroup : StagedChangeType → Nat
  | .deleteEdge => 1
  | .deleteEntity => 2
  | .renameEntity => 3
  | .updateEntity => 3
  | .editEdge => 3
  | .reverseEdge => 3
  | .assignLayer => 3
  | .moveToLayer => 3
  | .createEntity => 4
  | .createEdge => 5

/-- An apply hook: the closure that the numbered staging call has passed for a change. -/
structure Hook where
  changeId : Nat
  edit : Nat
deriving DecidableEq, Repr

/-- A change, with the number of the staging call that has given it its content. -/
structure StagedChange where
  id : Nat
  edit : Nat
  type : StagedChangeType
  targetId : String
  apply : Option Hook
  timestamp : Nat
  error : Option String
deriving DecidableEq, Repr

/-- What a staging call passes. -/
structure Input where
  type : StagedChangeType
  targetId : String
  hasApply : Bool
  error : Option String
deriving DecidableEq, Repr

namespace StagedChange

/-- The id is a new one: the number of the staging call. -/
def staged (input : Input) (edit now : Nat) : StagedChange where
  id := edit
  edit := edit
  type := input.type
  targetId := input.targetId
  apply := if input.hasApply then some ⟨edit, edit⟩ else none
  timestamp := now
  error := input.error

/-- What the input does not have is kept. -/
def replaced (change : StagedChange) (input : Input) (edit now : Nat) : StagedChange where
  id := change.id
  edit := edit
  type := input.type
  targetId := input.targetId
  apply := if input.hasApply then some ⟨change.id, edit⟩ else change.apply
  timestamp := now
  error := input.error.or change.error

variable {change : StagedChange} {input : Input} {edit now : Nat} {hook : Hook}

theorem eq_of_staged (own : hook ∈ (staged input edit now).apply) : hook = ⟨edit, edit⟩ := by
  unfold staged at own
  dsimp only at own
  split at own
  · exact (Option.some.inj own).symm
  · cases own

theorem eq_of_replaced (own : hook ∈ (change.replaced input edit now).apply) :
    hook = ⟨change.id, edit⟩ ∨ hook ∈ change.apply := by
  unfold replaced at own
  dsimp only at own
  split at own
  · exact .inl (Option.some.inj own).symm
  · exact .inr own

end StagedChange

inductive ApplyStatus where
  | idle
  | applying
  | partialError
deriving DecidableEq, Repr

structure Store where
  changes : List StagedChange
  redoStack : List StagedChange
  applyStatus : ApplyStatus
  lastApplyResult : Option (Nat × Nat)
deriving DecidableEq, Repr

namespace Store

def empty : Store := ⟨[], [], .idle, none⟩

def stage (store : Store) (input : Input) (edit now : Nat) : Store :=
  { store with
    changes := store.changes ++ [StagedChange.staged input edit now]
    redoStack := [] }

def stageOrReplace (store : Store) (matcher : StagedChange → Bool) (input : Input)
    (edit now : Nat) : Store :=
  match store.changes.find? matcher with
  | some existing =>
      { store with
        changes := store.changes.map fun change =>
          if change.id = existing.id then change.replaced input edit now else change }
  | none => store.stage input edit now

theorem stageOrReplace_found {store : Store} {matcher : StagedChange → Bool} {input : Input}
    {edit now : Nat} {existing : StagedChange}
    (found : store.changes.find? matcher = some existing) :
    store.stageOrReplace matcher input edit now =
      { store with
        changes := store.changes.map fun change =>
          if change.id = existing.id then change.replaced input edit now else change } := by
  rw [stageOrReplace, found]

def discard (store : Store) (changeId : Nat) : Store :=
  match store.changes.find? fun change => change.id = changeId with
  | some change =>
      { store with
        changes := store.changes.filter fun change => change.id ≠ changeId
        redoStack := store.redoStack ++ [change] }
  | none => store

def discardAll (_store : Store) : Store := ⟨[], [], .idle, none⟩

def undo (store : Store) : Store :=
  match store.changes.getLast? with
  | some last =>
      { store with
        changes := store.changes.dropLast
        redoStack := store.redoStack ++ [last] }
  | none => store

def redo (store : Store) : Store :=
  match store.redoStack.getLast? with
  | some change =>
      { store with
        changes := store.changes ++ [change]
        redoStack := store.redoStack.dropLast }
  | none => store

end Store

/-- The comparison of `applyAll` does not put the second change first. -/
def AppliedFirst (a b : StagedChange) : Prop :=
  let ga := applyOrderGroup a.type
  let gb := applyOrderGroup b.type
  if ga ≠ gb then ga < gb else a.timestamp ≤ b.timestamp

instance : DecidableRel AppliedFirst :=
  fun a b => inferInstanceAs (Decidable (if applyOrderGroup a.type ≠ applyOrderGroup b.type then
    applyOrderGroup a.type < applyOrderGroup b.type else a.timestamp ≤ b.timestamp))

/-- A hook that has been called, with what its `resolveTempId` returns. -/
structure Call where
  change : StagedChange
  resolveTempId : String → Option String

/-- A call of `applyAll` at an `await`, or at its end.  `list` is what it has found in the
store; `pending` is what it has still to do, and starts with the change whose hook is
awaited. -/
structure Run where
  list : List StagedChange
  pending : List StagedChange
  ok : Nat
  failed : Nat
  remaining : List StagedChange
  tempIdMap : String → Option String
  calls : List Call

namespace Run

/-- Changes without a hook are counted and passed over, up to the next call of a hook. -/
def skip (run : Run) : List StagedChange → Run
  | [] => { run with pending := [] }
  | change :: rest =>
      if change.apply.isNone then skip { run with ok := run.ok + 1 } rest
      else
        { run with
          pending := change :: rest
          calls := run.calls ++ [⟨change, run.tempIdMap⟩] }

section skip

variable {run : Run} {rest : List StagedChange}

theorem skip_eq (run : Run) (rest : List StagedChange) :
    ∃ ok, run.skip rest =
      { run with
        pending := rest.dropWhile fun change => change.apply.isNone
        ok := ok
        calls := run.calls ++ ((rest.dropWhile fun change => change.apply.isNone).head?.map
          fun change => ⟨change, run.tempIdMap⟩).toList } := by
  induction rest generalizing run with
  | nil => exact ⟨run.ok, by simp [skip]⟩
  | cons change rest ih =>
      rw [skip, List.dropWhile_cons]
      split
      · exact ih { run with ok := run.ok + 1 }
      · exact ⟨run.ok, rfl⟩

@[simp] theorem skip_list : (run.skip rest).list = run.list := by
  obtain ⟨ok, same⟩ := run.skip_eq rest
  rw [same]

@[simp] theorem skip_remaining : (run.skip rest).remaining = run.remaining := by
  obtain ⟨ok, same⟩ := run.skip_eq rest
  rw [same]

@[simp] theorem skip_tempIdMap : (run.skip rest).tempIdMap = run.tempIdMap := by
  obtain ⟨ok, same⟩ := run.skip_eq rest
  rw [same]

theorem skip_pending :
    (run.skip rest).pending = rest.dropWhile fun change => change.apply.isNone := by
  obtain ⟨ok, same⟩ := run.skip_eq rest
  rw [same]

theorem skip_calls : (run.skip rest).calls =
    run.calls ++ ((run.skip rest).pending.head?.map fun change => ⟨change, run.tempIdMap⟩).toList := by
  obtain ⟨ok, same⟩ := run.skip_eq rest
  rw [same]

theorem mem_skip_pending {change : StagedChange} {hook : Hook} (member : change ∈ rest)
    (hooked : change.apply = some hook) : change ∈ (run.skip rest).pending := by
  rw [skip_pending]
  have split : rest.takeWhile (fun change => change.apply.isNone) ++
      rest.dropWhile (fun change => change.apply.isNone) = rest :=
    List.takeWhile_append_dropWhile
  rw [← split] at member
  rcases List.mem_append.mp member with passed | left
  · have without := List.mem_takeWhile_imp passed
    simp [hooked] at without
  · exact left

theorem skip_pending_sublist : (run.skip rest).pending.Sublist rest := by
  rw [skip_pending]
  exact (List.dropWhile_suffix _).sublist

end skip

def start (changes : List StagedChange) : Run :=
  skip
    { list := changes
      pending := []
      ok := 0
      failed := 0
      remaining := []
      tempIdMap := fun _ => none
      calls := [] }
    (changes.insertionSort AppliedFirst)

def registerTempIdResolution (map : String → Option String) (pair : String × String) :
    String → Option String :=
  Function.update map pair.1 (some pair.2)

/-- The awaited hook ends, with the temp ids that it has registered and perhaps an error. -/
def settle (run : Run) (change : StagedChange) (rest : List StagedChange)
    (registered : List (String × String)) (error : Option String) : Run :=
  let map := registered.foldl registerTempIdResolution run.tempIdMap
  match error with
  | none => skip { run with ok := run.ok + 1, tempIdMap := map } rest
  | some message =>
      skip
        { run with
          failed := run.failed + 1
          remaining := run.remaining ++ [{ change with error := some message }]
          tempIdMap := map }
        rest

section settle

variable {run : Run} {change : StagedChange} {rest : List StagedChange}
  {registered : List (String × String)} {error : Option String}

theorem settle_eq (run : Run) (change : StagedChange) (rest : List StagedChange)
    (registered : List (String × String)) (error : Option String) :
    ∃ ok failed, run.settle change rest registered error = skip
      { run with
        ok := ok
        failed := failed
        remaining := run.remaining ++
          (error.map fun message => { change with error := some message }).toList
        tempIdMap := registered.foldl registerTempIdResolution run.tempIdMap }
      rest := by
  cases error with
  | none => exact ⟨run.ok + 1, run.failed, by simp [settle]⟩
  | some message => exact ⟨run.ok, run.failed + 1, rfl⟩

@[simp] theorem settle_list : (run.settle change rest registered error).list = run.list := by
  obtain ⟨ok, failed, same⟩ := run.settle_eq change rest registered error
  rw [same, skip_list]

theorem settle_remaining : (run.settle change rest registered error).remaining =
    run.remaining ++ (error.map fun message => { change with error := some message }).toList := by
  obtain ⟨ok, failed, same⟩ := run.settle_eq change rest registered error
  rw [same, skip_remaining]

theorem settle_tempIdMap : (run.settle change rest registered error).tempIdMap =
    registered.foldl registerTempIdResolution run.tempIdMap := by
  obtain ⟨ok, failed, same⟩ := run.settle_eq change rest registered error
  rw [same, skip_tempIdMap]

theorem settle_pending : (run.settle change rest registered error).pending =
    rest.dropWhile fun change => change.apply.isNone := by
  obtain ⟨ok, failed, same⟩ := run.settle_eq change rest registered error
  rw [same, skip_pending]

theorem settle_pending_sublist :
    (run.settle change rest registered error).pending.Sublist rest := by
  rw [settle_pending]
  exact (List.dropWhile_suffix _).sublist

theorem mem_settle_pending {other : StagedChange} {hook : Hook} (member : other ∈ rest)
    (hooked : other.apply = some hook) :
    other ∈ (run.settle change rest registered error).pending := by
  obtain ⟨ok, failed, same⟩ := run.settle_eq change rest registered error
  rw [same]
  exact mem_skip_pending member hooked

theorem settle_calls : (run.settle change rest registered error).calls =
    run.calls ++ ((run.settle change rest registered error).pending.head?.map fun next =>
      ⟨next, registered.foldl registerTempIdResolution run.tempIdMap⟩).toList := by
  obtain ⟨ok, failed, same⟩ := run.settle_eq change rest registered error
  rw [same, skip_calls]

end settle

end Run

/-- At its end a run puts what has failed in the place of the list. -/
def Store.finish (store : Store) (run : Run) : Store :=
  if run.pending = [] then
    { store with
      changes := run.remaining
      applyStatus := if run.failed > 0 then .partialError else .idle
      lastApplyResult := some (run.ok, run.failed) }
  else store

@[simp] theorem Store.finish_redoStack (store : Store) (run : Run) :
    (store.finish run).redoStack = store.redoStack := by
  unfold finish
  split <;> rfl

end Univiz.Staging
