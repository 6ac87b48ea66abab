import Univiz.Data.Unwinding
import Univiz.Staging.Store

namespace Univiz.Staging

open Univiz.Data

/-! What discarding everything does to the state that has been edited.

Every staging call passes a discard hook, and the calls are numbered from zero.  The hook of
a change is that of the call that has given it its content. -/

variable {σ : Type}

/-- An edit of the state, with the call that records it: `stage`, or `stageOrReplace` where
there is a matcher. -/
structure Edit (σ : Type) where
  matcher : Option (StagedChange → Bool)
  input : Input
  now : Nat
  after : σ

/-- Edits of a state, each of which changes it. -/
structure History (σ : Type) where
  initial : σ
  edits : List (Edit σ)
  changing : (initial :: edits.map Edit.after).IsChain (· ≠ ·)

def Store.record (store : Store) (edit : Edit σ) (number : Nat) : Store :=
  match edit.matcher with
  | none => store.stage edit.input number edit.now
  | some matcher => store.stageOrReplace matcher edit.input number edit.now

def recordFrom (store : Store) (number : Nat) : List (Edit σ) → Store
  | [] => store
  | edit :: rest => recordFrom (store.record edit number) (number + 1) rest

/-- The store beside the state that the hooks act on. -/
structure Workspace (σ : Type) where
  store : Store
  state : σ

namespace Workspace

variable (discard : Nat → σ → σ) (workspace : Workspace σ)

def discardAll : Workspace σ where
  store := workspace.store.discardAll
  state := unwind discard (workspace.store.changes.map StagedChange.edit) workspace.state

def undo : Workspace σ where
  store := workspace.store.undo
  state :=
    match workspace.store.changes.getLast? with
    | some last => discard last.edit workspace.state
    | none => workspace.state

/-- Undo as often as there are changes. -/
def undoAll : Workspace σ := (undo discard)^[workspace.store.changes.length] workspace

end Workspace

namespace History

variable (history : History σ)

def states : List σ := history.initial :: history.edits.map Edit.after

/-- The state just before the edit of a number. -/
def before (number : Nat) : σ := history.states.getD number history.initial

def after (number : Nat) : σ := history.states.getD (number + 1) history.initial

/-- The state after all edits. -/
def final : σ := history.before history.edits.length

def recorded : Workspace σ := ⟨recordFrom .empty 0 history.edits, history.final⟩

/-- Each hook restores the state just before its edit. -/
def Restores (discard : Nat → σ → σ) : Prop :=
  ∀ number < history.edits.length, discard number (history.after number) = history.before number

/-- Whatever else the hooks do, both ways of discarding everything restore the initial state. -/
def Unwinds : Prop :=
  ∀ discard, history.Restores discard →
    (history.recorded.discardAll discard).state = history.initial ∧
      (history.recorded.undoAll discard).store.changes = [] ∧
        (history.recorded.undoAll discard).state = history.initial

/-- The edits that the changes hold at last, in the order of the list, follow on from one
another. -/
def FollowOn : Prop :=
  Leads history.before history.after history.initial
    (history.recorded.store.changes.map StagedChange.edit) history.final

end History

theorem undo_concat (discard : Nat → σ → σ) {workspace : Workspace σ}
    {changes : List StagedChange} {last : StagedChange}
    (listed : workspace.store.changes = changes ++ [last]) :
    (workspace.undo discard).store.changes = changes ∧
      (workspace.undo discard).state = discard last.edit workspace.state := by
  simp [Workspace.undo, Store.undo, listed]

theorem undoAll_eq (discard : Nat → σ → σ) (workspace : Workspace σ) :
    (workspace.undoAll discard).store.changes = [] ∧
      (workspace.undoAll discard).state = (workspace.discardAll discard).state := by
  unfold Workspace.undoAll Workspace.discardAll
  generalize listed : workspace.store.changes = changes
  induction changes using List.reverseRecOn generalizing workspace with
  | nil => exact ⟨listed, rfl⟩
  | append_singleton changes last ih =>
      obtain ⟨rest, state⟩ := undo_concat discard listed
      rw [List.length_append, List.length_singleton, Function.iterate_succ_apply, List.map_append,
        List.map_singleton, unwind_concat, ← state]
      exact ih (workspace.undo discard) rest

/-- The changes have different ids and hold different edits, of numbers given so far. -/
structure Numbered (changes : List StagedChange) (next : Nat) : Prop where
  apart : changes.Pairwise fun a b => a.id ≠ b.id ∧ a.edit ≠ b.edit
  given : ∀ change ∈ changes, change.id < next ∧ change.edit < next

theorem Numbered.stage {store : Store} {next : Nat} (numbered : Numbered store.changes next)
    (input : Input) (now : Nat) : Numbered (store.stage input next now).changes (next + 1) := by
  refine ⟨?_, ?_⟩
  · refine List.pairwise_append.mpr ⟨numbered.apart, List.pairwise_singleton _ _, ?_⟩
    intro change member new isNew
    cases List.mem_singleton.mp isNew
    obtain ⟨id, edit⟩ := numbered.given change member
    exact ⟨Nat.ne_of_lt id, Nat.ne_of_lt edit⟩
  · intro change member
    rcases List.mem_append.mp member with old | new
    · obtain ⟨id, edit⟩ := numbered.given change old
      exact ⟨Nat.lt_succ_of_lt id, Nat.lt_succ_of_lt edit⟩
    · cases List.mem_singleton.mp new
      exact ⟨Nat.lt_succ_self next, Nat.lt_succ_self next⟩

/-- The replaced change keeps its id and has the newest edit. -/
theorem Numbered.stageOrReplace {store : Store} {next : Nat}
    (numbered : Numbered store.changes next) (matcher : StagedChange → Bool) (input : Input)
    (now : Nat) :
    Numbered (store.stageOrReplace matcher input next now).changes (next + 1) := by
  cases found : store.changes.find? matcher with
  | none =>
      rw [Store.stageOrReplace, found]
      exact numbered.stage input now
  | some existing =>
      rw [Store.stageOrReplace_found found]
      refine ⟨?_, ?_⟩
      · refine List.pairwise_map.mpr (numbered.apart.imp_of_mem ?_)
        intro a b inside inside' apart
        have given := (numbered.given a inside).2
        have given' := (numbered.given b inside').2
        split
        · rename_i here
          split
          · rename_i here'
            exact absurd (here.trans here'.symm) apart.1
          · exact ⟨apart.1, Nat.ne_of_gt given'⟩
        · split
          · exact ⟨apart.1, Nat.ne_of_lt given⟩
          · exact apart
      · intro change member
        obtain ⟨old, inside, rfl⟩ := List.mem_map.mp member
        obtain ⟨id, edit⟩ := numbered.given old inside
        split
        · exact ⟨Nat.lt_succ_of_lt id, Nat.lt_succ_self next⟩
        · exact ⟨Nat.lt_succ_of_lt id, Nat.lt_succ_of_lt edit⟩

theorem Numbered.record {store : Store} {next : Nat} (numbered : Numbered store.changes next)
    (edit : Edit σ) : Numbered (store.record edit next).changes (next + 1) := by
  unfold Store.record
  split
  · exact numbered.stage edit.input edit.now
  · exact numbered.stageOrReplace _ edit.input edit.now

theorem Numbered.recordFrom {store : Store} {next : Nat} (numbered : Numbered store.changes next)
    (edits : List (Edit σ)) :
    Numbered (Staging.recordFrom store next edits).changes (next + edits.length) := by
  induction edits generalizing store next with
  | nil => exact numbered
  | cons edit rest ih =>
      have later := ih (numbered.record edit)
      rw [List.length_cons, ← Nat.add_assoc, Nat.add_right_comm]
      exact later

namespace History

variable {history : History σ}

theorem numbered : Numbered history.recorded.store.changes history.edits.length := by
  have empty : Numbered Store.empty.changes 0 := ⟨.nil, nofun⟩
  have later := empty.recordFrom history.edits
  rwa [Nat.zero_add] at later

theorem before_ne_after {number : Nat} (inside : number < history.edits.length) :
    history.before number ≠ history.after number := by
  have length : history.states.length = history.edits.length + 1 := by simp [states]
  have here : number < history.states.length := by omega
  have next : number + 1 < history.states.length := by omega
  simp only [before, after, List.getD_eq_getElem?_getD, List.getElem?_eq_getElem here,
    List.getElem?_eq_getElem next, Option.getD_some]
  exact List.isChain_iff_getElem.mp history.changing number next

/-- Discarding everything restores the initial state exactly where the edits that are left
of the replaced changes follow on from one another. -/
theorem unwinds_iff : history.Unwinds ↔ history.FollowOn := by
  have numbered := history.numbered
  have given : ∀ number ∈ history.recorded.store.changes.map StagedChange.edit,
      number < history.edits.length := by
    intro number member
    obtain ⟨change, listed, rfl⟩ := List.mem_map.mp member
    exact (numbered.given change listed).2
  refine ⟨?_, ?_⟩
  · intro unwinds
    by_contra astray
    have distinct : (history.recorded.store.changes.map StagedChange.edit).Nodup :=
      List.pairwise_map.mpr (numbered.apart.imp fun apart => apart.2)
    obtain ⟨discard, restores, missed⟩ := exists_unwind_ne distinct
      (fun number member => before_ne_after (given number member)) astray
    exact missed (unwinds discard fun number _ => restores number).1
  · intro follow discard restores
    have unwound : (history.recorded.discardAll discard).state = history.initial :=
      follow.unwind fun number member => restores number (given number member)
    obtain ⟨empty, same⟩ := undoAll_eq discard history.recorded
    exact ⟨unwound, empty, same.trans unwound⟩

theorem leads_range (history : History σ) (number count : Nat) :
    Leads history.before history.after (history.before number) (List.range' number count)
      (history.before (number + count)) := by
  induction count generalizing number with
  | zero => rfl
  | succ count ih =>
      have later := ih (number + 1)
      rw [Nat.add_right_comm, Nat.add_assoc] at later
      exact ⟨rfl, later⟩

theorem edits_recordFrom {edits : List (Edit σ)} (store : Store) (number : Nat)
    (staged : ∀ edit ∈ edits, edit.matcher = none) :
    (recordFrom store number edits).changes.map StagedChange.edit =
      store.changes.map StagedChange.edit ++ List.range' number edits.length := by
  induction edits generalizing store number with
  | nil => exact (List.append_nil _).symm
  | cons edit rest ih =>
      obtain ⟨here, later⟩ := List.forall_mem_cons.mp staged
      rw [recordFrom, ih _ _ later, Store.record, here, Store.stage, List.map_append, List.map_singleton,
        List.append_assoc, List.length_cons, List.range'_succ]
      rfl

theorem followOn_of_staged (staged : ∀ edit ∈ history.edits, edit.matcher = none) :
    history.FollowOn := by
  have edits := edits_recordFrom .empty 0 staged
  rw [FollowOn, recorded, edits, final]
  have leads := history.leads_range 0 history.edits.length
  rwa [Nat.zero_add] at leads

def rename (after : String) (now : Nat) : Edit String where
  matcher := some fun change => change.type = .renameEntity ∧ change.targetId = "orders"
  input := ⟨.renameEntity, "orders", false, none⟩
  now := now
  after := after

def renamedTwice : History String where
  initial := "Orders"
  edits := [rename "Sales" 1, rename "Sales 2024" 2]
  changing := by decide

/-- The hook of the second rename takes the name back to that of the first. -/
theorem renamed_not_unwound : ¬ renamedTwice.Unwinds := by
  intro unwinds
  have restored := unwinds (fun number _ => renamedTwice.before number) (fun _ _ => rfl)
  exact absurd restored.1 (by decide)

end History

end Univiz.Staging
