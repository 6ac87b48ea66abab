import Univiz.Staging.Session

namespace Univiz.Staging

open Univiz.Data

/-! What the list and the runs that are not finished say of each other. -/

namespace Run

/-- The hooks of the changes that a run has found in the store. -/
def hooks (run : Run) : List Hook := run.list.filterMap StagedChange.apply

end Run

namespace Session

/-- A run does not begin with a change that another run is applying, redo does not bring
back a change that is on the list or whose hook a finished run has brought to success, and
a run does not end while the list has a change with a hook that is not one of its own. -/
def Orderly (session : Session) : Event → Prop
  | .redo => ∀ change ∈ session.store.redoStack.getLast?,
      change.id ∉ session.store.changes.map StagedChange.id ∧
        ∀ hook ∈ change.apply, hook ∈ session.succeeded →
          ∃ run ∈ session.runs, run.pending ≠ [] ∧ hook ∈ run.hooks
  | .applyAll => ∀ change ∈ session.store.changes, ∀ hook ∈ change.apply,
      ∀ run ∈ session.runs, run.pending ≠ [] → hook ∉ run.hooks
  | .settle i _ _ => ∀ run ∈ session.runs[i]?,
      (∀ change ∈ run.pending.tail, change.apply = none) →
        ∀ change ∈ session.store.changes, change.apply ≠ none → change.token ∈ tokens run.list
  | _ => True

instance (session : Session) : DecidablePred session.Orderly
  | .redo => inferInstanceAs (Decidable (∀ change ∈ session.store.redoStack.getLast?,
      change.id ∉ session.store.changes.map StagedChange.id ∧
        ∀ hook ∈ change.apply, hook ∈ session.succeeded →
          ∃ run ∈ session.runs, run.pending ≠ [] ∧ hook ∈ run.hooks))
  | .applyAll => inferInstanceAs (Decidable (∀ change ∈ session.store.changes,
      ∀ hook ∈ change.apply, ∀ run ∈ session.runs, run.pending ≠ [] → hook ∉ run.hooks))
  | .settle i _ _ => inferInstanceAs (Decidable (∀ run ∈ session.runs[i]?,
      (∀ change ∈ run.pending.tail, change.apply = none) →
        ∀ change ∈ session.store.changes, change.apply ≠ none → change.token ∈ tokens run.list))
  | .stage _ _ | .stageOrReplace _ _ _ | .discard _ => isTrue trivial
  | .discardAll | .undo => isTrue trivial

/-- The ids and hooks of a change are those of staging calls so far. -/
structure Numbered (edits : Nat) (change : StagedChange) : Prop where
  id : change.id < edits
  hook : ∀ hook ∈ change.apply, hook.changeId = change.id ∧ hook.edit < edits

/-- What a run has still to do or to put back is its own, and has not succeeded; the
rest of what it has found has. -/
structure RunSound (edits : Nat) (succeeded : List Hook) (run : Run) : Prop where
  distinct : ((run.remaining ++ run.pending).map StagedChange.id).Nodup
  numbered : ∀ change ∈ run.remaining ++ run.pending, Numbered edits change
  unapplied : ∀ change ∈ run.remaining ++ run.pending, ∀ hook ∈ change.apply,
    hook ∈ run.hooks ∧ hook ∉ succeeded
  covered : ∀ change ∈ run.list, ∀ hook ∈ change.apply,
    change ∈ run.pending ∨ change.token ∈ tokens run.remaining ∨ hook ∈ succeeded

/-- Two runs that are not finished apply different changes. -/
def RunsApart (run other : Run) : Prop :=
  run.pending ≠ [] → other.pending ≠ [] → ∀ hook ∈ run.hooks, hook ∉ other.hooks

structure Sound (session : Session) : Prop where
  listed : ∀ change ∈ session.store.changes, Numbered session.edits change
  undone : ∀ change ∈ session.store.redoStack, Numbered session.edits change
  distinct : (session.store.changes.map StagedChange.id).Nodup
  succeeded : ∀ hook ∈ session.succeeded, hook.edit < session.edits
  applied : ∀ change ∈ session.store.changes, ∀ hook ∈ change.apply, hook ∈ session.succeeded →
    ∃ run ∈ session.runs, run.pending ≠ [] ∧ hook ∈ run.hooks
  running : ∀ run ∈ session.runs, run.pending ≠ [] →
    RunSound session.edits session.succeeded run
  apart : session.runs.Pairwise RunsApart

variable {session next : Session} {change : StagedChange} {edits : Nat}

theorem Numbered.mono {more : Nat} (numbered : Numbered edits change) (grown : edits ≤ more) :
    Numbered more change :=
  ⟨Nat.lt_of_lt_of_le numbered.id grown, fun hook member =>
    ⟨(numbered.hook hook member).1, Nat.lt_of_lt_of_le (numbered.hook hook member).2 grown⟩⟩

theorem RunSound.mono {more : Nat} {succeeded : List Hook} {run : Run}
    (sound : RunSound edits succeeded run) (grown : edits ≤ more) : RunSound more succeeded run :=
  { sound with numbered := fun change member => (sound.numbered change member).mono grown }

theorem nodup_ids_concat {changes : List StagedChange}
    (distinct : (changes.map StagedChange.id).Nodup)
    (absent : change.id ∉ changes.map StagedChange.id) :
    ((changes ++ [change]).map StagedChange.id).Nodup := by
  rw [List.map_append, List.nodup_append]
  refine ⟨distinct, List.nodup_singleton _, ?_⟩
  intro id member other single same
  rw [List.mem_singleton.mp single] at same
  exact absent (same ▸ member)

theorem stage_sound (input : Input) (now : Nat) (sound : Sound session) :
    Sound (session.stage input now) := by
  have grown : session.edits ≤ session.edits + 1 := Nat.le_succ _
  have fresh : Numbered (session.edits + 1) (StagedChange.staged input session.edits now) := by
    constructor
    · exact Nat.lt_succ_self _
    · intro hook member
      cases StagedChange.eq_of_staged member
      exact ⟨rfl, Nat.lt_succ_self _⟩
  constructor
  · intro change member
    rcases List.mem_append.mp member with old | new
    · exact (sound.listed change old).mono grown
    · cases List.mem_singleton.mp new
      exact fresh
  · intro change member
    cases member
  · have absent : session.edits ∉ session.store.changes.map StagedChange.id := by
      intro member
      obtain ⟨change, inside, same⟩ := List.mem_map.mp member
      have older := (sound.listed change inside).id
      omega
    exact nodup_ids_concat sound.distinct absent
  · intro hook member
    exact Nat.lt_succ_of_lt (sound.succeeded hook member)
  · intro change member hook own succeeded
    rcases List.mem_append.mp member with old | new
    · exact sound.applied change old hook own succeeded
    · cases List.mem_singleton.mp new
      cases StagedChange.eq_of_staged own
      exact absurd (sound.succeeded _ succeeded) (Nat.lt_irrefl _)
  · intro run member pending
    exact (sound.running run member pending).mono grown
  · exact sound.apart

theorem replaced_numbered {input : Input} {now : Nat} (numbered : Numbered edits change) :
    Numbered (edits + 1) (change.replaced input edits now) := by
  constructor
  · exact Nat.lt_succ_of_lt numbered.id
  · intro hook member
    rcases StagedChange.eq_of_replaced member with rfl | old
    · exact ⟨rfl, Nat.lt_succ_self _⟩
    · have former := numbered.hook hook old
      exact ⟨former.1, Nat.lt_succ_of_lt former.2⟩

theorem stageOrReplace_sound (matcher : StagedChange → Bool) (input : Input) (now : Nat)
    (sound : Sound session) : Sound (session.stageOrReplace matcher input now) := by
  simp only [stageOrReplace]
  split
  · rename_i existing found
    have grown : session.edits ≤ session.edits + 1 := Nat.le_succ _
    rw [Store.stageOrReplace_found found]
    constructor
    · intro change member
      obtain ⟨old, inside, rfl⟩ := List.mem_map.mp member
      have numbered := sound.listed old inside
      split
      · exact replaced_numbered numbered
      · exact numbered.mono grown
    · intro change member
      exact (sound.undone change member).mono grown
    · dsimp only
      rw [List.map_map]
      have ids : (StagedChange.id ∘ fun change : StagedChange => if change.id = existing.id then
          change.replaced input session.edits now else change) = StagedChange.id := by
        funext change
        dsimp only [Function.comp_apply]
        split <;> rfl
      rw [ids]
      exact sound.distinct
    · intro hook member
      exact Nat.lt_succ_of_lt (sound.succeeded hook member)
    · intro change member hook own succeeded
      obtain ⟨old, inside, rfl⟩ := List.mem_map.mp member
      have kept := fun own => sound.applied old inside hook own succeeded
      split at own
      · rcases StagedChange.eq_of_replaced own with rfl | former
        · exact absurd (sound.succeeded _ succeeded) (Nat.lt_irrefl _)
        · exact kept former
      · exact kept own
    · intro run member pending
      exact (sound.running run member pending).mono grown
    · exact sound.apart
  · exact stage_sound input now sound

theorem Sound.taken {store : Store} {released : List Token} (sound : Sound session)
    (listed : store.changes.Sublist session.store.changes)
    (undone : ∀ change ∈ store.redoStack,
      change ∈ session.store.changes ∨ change ∈ session.store.redoStack) :
    Sound { session with store := store, released := released } where
  listed change member := sound.listed change (listed.mem member)
  undone change member := (undone change member).elim (sound.listed change) (sound.undone change)
  distinct := sound.distinct.sublist (listed.map StagedChange.id)
  succeeded := sound.succeeded
  applied change member := sound.applied change (listed.mem member)
  running := sound.running
  apart := sound.apart

theorem discard_sound (changeId : Nat) (sound : Sound session) :
    Sound (session.discard changeId) := by
  unfold discard Store.discard
  apply sound.taken
  · split
    · exact List.filter_sublist
    · exact List.Sublist.refl _
  · intro change member
    split at member
    · rename_i found lookup
      rcases List.mem_append.mp member with old | new
      · exact .inr old
      · cases List.mem_singleton.mp new
        exact .inl (List.mem_of_find?_eq_some lookup)
    · exact .inr member

theorem discardAll_sound (sound : Sound session) : Sound session.discardAll := by
  simp only [discardAll]
  apply sound.taken
  · exact List.nil_sublist _
  · intro change member
    cases member

theorem undo_sound (sound : Sound session) : Sound session.undo := by
  unfold undo Store.undo
  apply sound.taken
  · split
    · exact List.dropLast_sublist _
    · exact List.Sublist.refl _
  · intro change member
    split at member
    · rename_i last lookup
      rcases List.mem_append.mp member with old | new
      · exact .inr old
      · cases List.mem_singleton.mp new
        exact .inl (List.mem_of_getLast? lookup)
    · exact .inr member

theorem redo_sound (orderly : session.Orderly .redo) (sound : Sound session) :
    Sound session.redo := by
  unfold redo Store.redo
  split
  · rename_i change lookup
    obtain ⟨absent, unapplied⟩ := orderly change lookup
    have undone := sound.undone change (List.mem_of_getLast? lookup)
    constructor
    · intro other member
      rcases List.mem_append.mp member with old | new
      · exact sound.listed other old
      · cases List.mem_singleton.mp new
        exact undone
    · intro other member
      exact sound.undone other ((List.dropLast_sublist _).mem member)
    · exact nodup_ids_concat sound.distinct absent
    · exact sound.succeeded
    · intro other member hook own succeeded
      rcases List.mem_append.mp member with old | new
      · exact sound.applied other old hook own succeeded
      · cases List.mem_singleton.mp new
        exact unapplied hook own succeeded
    · exact sound.running
    · exact sound.apart
  · exact sound

theorem runsApart_symm (run other : Run) (apart : RunsApart run other) : RunsApart other run :=
  fun running running' hook member member' => apart running' running hook member' member

theorem finish_sound {runs : List Run} {succeeded : List Hook} {run : Run} (sound : Sound session)
    (own : RunSound session.edits succeeded run)
    (numbers : ∀ hook ∈ succeeded, hook.edit < session.edits)
    (applied : run.pending ≠ [] → ∀ change ∈ session.store.changes, ∀ hook ∈ change.apply,
      hook ∈ succeeded → ∃ other ∈ runs, other.pending ≠ [] ∧ hook ∈ other.hooks)
    (running : ∀ other ∈ runs, other.pending ≠ [] → RunSound session.edits succeeded other)
    (apart : runs.Pairwise RunsApart) :
    Sound { session with
      store := session.store.finish run
      runs := runs
      succeeded := succeeded } := by
  simp only [Store.finish]
  split
  · rename_i finished
    have distinct := own.distinct
    have numbered := own.numbered
    have unapplied := own.unapplied
    rw [finished, List.append_nil] at distinct numbered unapplied
    constructor
    · exact numbered
    · exact sound.undone
    · exact distinct
    · exact numbers
    · intro change member hook hooked already
      exact absurd already (unapplied change member hook hooked).2
    · exact running
    · exact apart
  · rename_i unfinished
    constructor
    · exact sound.listed
    · exact sound.undone
    · exact sound.distinct
    · exact numbers
    · exact applied unfinished
    · exact running
    · exact apart

theorem mem_hooks {run : Run} {hook : Hook} (member : change ∈ run.list)
    (hooked : hook ∈ change.apply) : hook ∈ run.hooks :=
  List.mem_filterMap.mpr ⟨change, member, hooked⟩

theorem start_sound (orderly : session.Orderly .applyAll) (sound : Sound session) :
    RunSound session.edits session.succeeded (Run.start session.store.changes) := by
  have sorted := List.perm_insertionSort AppliedFirst session.store.changes
  have pending : (Run.start session.store.changes).pending.Sublist
      (session.store.changes.insertionSort AppliedFirst) := Run.skip_pending_sublist
  have list : (Run.start session.store.changes).list = session.store.changes := Run.skip_list
  have remaining : (Run.start session.store.changes).remaining = [] := Run.skip_remaining
  have listed : ∀ change ∈ (Run.start session.store.changes).remaining ++
      (Run.start session.store.changes).pending, change ∈ session.store.changes := by
    intro change member
    rw [remaining, List.nil_append] at member
    exact sorted.mem_iff.mp (pending.mem member)
  constructor
  · rw [remaining, List.nil_append]
    have distinct := (sorted.map StagedChange.id).nodup_iff.mpr sound.distinct
    exact distinct.sublist (pending.map StagedChange.id)
  · intro change member
    exact sound.listed change (listed change member)
  · intro change member hook hooked
    have inside := listed change member
    refine ⟨mem_hooks (list.symm ▸ inside) hooked, ?_⟩
    intro already
    obtain ⟨run, active, running, busy⟩ := sound.applied change inside hook hooked already
    exact orderly change inside hook hooked run active running busy
  · intro change member hook hooked
    rw [list] at member
    exact .inl (Run.mem_skip_pending (sorted.mem_iff.mpr member) hooked)

theorem applyAll_sound (orderly : session.Orderly .applyAll) (sound : Sound session) :
    Sound session.applyAll := by
  simp only [applyAll]
  split
  · exact sound
  · have own := start_sound orderly sound
    have status : Sound { session with
        store := { session.store with applyStatus := .applying } } :=
      sound.taken (List.Sublist.refl _) fun change member => .inr member
    apply finish_sound status own
    · exact sound.succeeded
    · intro _ change member hook hooked already
      obtain ⟨run, active, found⟩ := sound.applied change member hook hooked already
      exact ⟨run, List.mem_append_left _ active, found⟩
    · intro run member running
      rcases List.mem_append.mp member with old | new
      · exact sound.running run old running
      · cases List.mem_singleton.mp new
        exact own
    · refine List.pairwise_append.mpr ⟨sound.apart, List.pairwise_singleton _ _, ?_⟩
      intro run member new single running _ hook busy found
      cases List.mem_singleton.mp single
      obtain ⟨change, inside, hooked⟩ := List.mem_filterMap.mp found
      have list : (Run.start session.store.changes).list = session.store.changes := Run.skip_list
      rw [list] at inside
      exact orderly change inside hook hooked run member running busy

section settle

variable {i : Nat} {run : Run} {rest : List StagedChange} {registered : List (String × String)}
  {error : Option String} {succeeded : List Hook}

theorem mem_succeededAfter {hook : Hook} : hook ∈ succeededAfter succeeded change error ↔
    hook ∈ succeeded ∨ error = none ∧ hook ∈ change.apply := by
  simp only [succeededAfter]
  cases error <;> simp

theorem mem_settled {other : StagedChange}
    (member : other ∈ (run.settle change rest registered error).remaining ++
      (run.settle change rest registered error).pending) :
    other ∈ run.remaining ++ rest ∨
      ∃ message, error = some message ∧ other = { change with error := some message } := by
  rw [Run.settle_remaining, List.append_assoc] at member
  rcases List.mem_append.mp member with old | new
  · exact .inl (List.mem_append_left _ old)
  · rcases List.mem_append.mp new with failed | later
    · obtain ⟨message, raised, rfl⟩ := Option.map_eq_some_iff.mp (Option.mem_toList.mp failed)
      exact .inr ⟨message, raised, rfl⟩
    · exact .inl (List.mem_append_right _ (Run.settle_pending_sublist.mem later))

theorem awaited_mem (pending : run.pending = change :: rest) :
    change ∈ run.remaining ++ run.pending := by
  rw [pending]
  exact List.mem_append_right _ List.mem_cons_self

theorem hooks_settle : (run.settle change rest registered error).hooks = run.hooks := by
  simp [Run.hooks]

theorem settle_runSound (sound : RunSound edits succeeded run)
    (pending : run.pending = change :: rest) :
    RunSound edits (succeededAfter succeeded change error)
      (run.settle change rest registered error) := by
  have inside := awaited_mem pending
  have others : ∀ other ∈ run.remaining ++ rest, other ∈ run.remaining ++ run.pending := by
    intro other member
    rw [pending]
    rcases List.mem_append.mp member with old | later
    · exact List.mem_append_left _ old
    · exact List.mem_append_right _ (List.mem_cons_of_mem _ later)
  have distinct := sound.distinct
  rw [pending, List.map_append, List.map_cons] at distinct
  -- A hook belongs to one id, and the awaited change has an id of its own.
  have elsewhere : ∀ other ∈ run.remaining ++ rest, ∀ hook ∈ other.apply,
      hook ∉ change.apply := by
    intro other member hook own awaited
    have same : other.id = change.id :=
      ((sound.numbered other (others other member)).hook hook own).1.symm.trans
        ((sound.numbered change inside).hook hook awaited).1
    have apart := (List.nodup_middle.mp distinct)
    obtain ⟨absent, -⟩ := List.nodup_cons.mp apart
    rw [← List.map_append] at absent
    exact absent (List.mem_map.mpr ⟨other, member, same⟩)
  constructor
  · rw [Run.settle_remaining, List.append_assoc, List.map_append, List.map_append]
    refine distinct.sublist ((List.Sublist.refl _).append ?_)
    have later : ((run.settle change rest registered error).pending.map StagedChange.id).Sublist
        (rest.map StagedChange.id) := Run.settle_pending_sublist.map StagedChange.id
    cases error with
    | none => exact later.trans (List.sublist_cons_self _ _)
    | some message => exact later.cons_cons change.id
  · intro other member
    rcases mem_settled member with old | ⟨message, raised, rfl⟩
    · exact sound.numbered other (others other old)
    · have numbered := sound.numbered change inside
      exact ⟨numbered.id, numbered.hook⟩
  · intro other member hook own
    rw [hooks_settle, mem_succeededAfter]
    rcases mem_settled member with old | ⟨message, raised, rfl⟩
    · obtain ⟨found, unapplied⟩ := sound.unapplied other (others other old) hook own
      refine ⟨found, ?_⟩
      rintro (already | ⟨-, awaited⟩)
      · exact unapplied already
      · exact elsewhere other old hook own awaited
    · obtain ⟨found, unapplied⟩ := sound.unapplied change inside hook own
      refine ⟨found, ?_⟩
      rintro (already | ⟨succeeded, -⟩)
      · exact unapplied already
      · rw [raised] at succeeded
        cases succeeded
  · intro other member hook own
    rw [Run.settle_list] at member
    rw [mem_succeededAfter]
    rcases sound.covered other member hook own with waiting | back | already
    · rw [pending] at waiting
      rcases List.mem_cons.mp waiting with rfl | later
      · cases error with
        | none => exact .inr (.inr (.inr ⟨rfl, own⟩))
        | some message =>
            right
            left
            rw [Run.settle_remaining, tokens, List.map_append]
            exact List.mem_append_right _ List.mem_cons_self
      · exact .inl (Run.mem_settle_pending later own)
    · right
      left
      rw [Run.settle_remaining, tokens, List.map_append]
      exact List.mem_append_left _ back
    · exact .inr (.inr (.inl already))

theorem settle_sound (lookup : session.runs[i]? = some run) (pending : run.pending = change :: rest)
    (sound : Sound session) :
    Sound { session with
      store := session.store.finish (run.settle change rest registered error)
      runs := session.runs.set i (run.settle change rest registered error)
      succeeded := succeededAfter session.succeeded change error } := by
  have running : run.pending ≠ [] := by simp [pending]
  have own := sound.running run (List.mem_of_getElem? lookup) running
  have inside := awaited_mem pending
  have bound : i < session.runs.length := (List.getElem?_eq_some_iff.mp lookup).1
  apply finish_sound sound (settle_runSound own pending)
  · intro hook member
    rcases mem_succeededAfter.mp member with already | ⟨-, awaited⟩
    · exact sound.succeeded hook already
    · exact ((own.numbered change inside).hook hook awaited).2
  · intro unfinished other member hook hooked already
    have here : run.settle change rest registered error ∈
        session.runs.set i (run.settle change rest registered error) :=
      List.mem_set bound _
    rcases mem_succeededAfter.mp already with before | ⟨-, awaited⟩
    · obtain ⟨active, found, busy, inHooks⟩ := sound.applied other member hook hooked before
      obtain ⟨j, lookup'⟩ := List.mem_iff_getElem?.mp found
      by_cases same : i = j
      · subst same
        rw [lookup] at lookup'
        cases lookup'
        exact ⟨_, here, unfinished, hooks_settle.symm ▸ inHooks⟩
      · refine ⟨active, List.mem_of_getElem? (i := j) ?_, busy, inHooks⟩
        rw [List.getElem?_set_ne same, lookup']
    · exact ⟨_, here, unfinished, hooks_settle.symm ▸ (own.unapplied change inside hook awaited).1⟩
  · intro other member busy
    obtain ⟨j, lookup'⟩ := List.mem_iff_getElem?.mp member
    rcases getElem?_set_cases lookup' with ⟨-, rfl⟩ | ⟨apart, old⟩
    · exact settle_runSound own pending
    · have sound' := sound.running other (List.mem_of_getElem? old) busy
      have disjoint := pairwise_of_ne runsApart_symm sound.apart lookup old apart running busy
      refine ⟨sound'.distinct, sound'.numbered, ?_, ?_⟩
      · intro waiting place hook hooked
        obtain ⟨found, unapplied⟩ := sound'.unapplied waiting place hook hooked
        refine ⟨found, ?_⟩
        intro already
        rcases mem_succeededAfter.mp already with before | ⟨-, awaited⟩
        · exact unapplied before
        · exact disjoint hook (own.unapplied change inside hook awaited).1 found
      · intro listed place hook hooked
        rcases sound'.covered listed place hook hooked with waiting | back | already
        · exact .inl waiting
        · exact .inr (.inl back)
        · exact .inr (.inr (mem_succeededAfter.mpr (.inl already)))
  · apply pairwise_set sound.apart lookup
    · intro other apart _ busy
      rw [hooks_settle]
      exact apart running busy
    · intro other apart busy _
      rw [hooks_settle]
      exact apart busy running

end settle

/-- Every step keeps what the runs and the list say of each other. -/
theorem step_sound (event : Event) (sound : Sound session) (orderly : session.Orderly event)
    (stepped : session.step event = some next) : Sound next := by
  cases event with
  | stage input now =>
      cases stepped
      exact stage_sound input now sound
  | stageOrReplace matcher input now =>
      cases stepped
      exact stageOrReplace_sound matcher input now sound
  | discard changeId =>
      cases stepped
      exact discard_sound changeId sound
  | discardAll =>
      cases stepped
      exact discardAll_sound sound
  | undo =>
      cases stepped
      exact undo_sound sound
  | redo =>
      cases stepped
      exact redo_sound orderly sound
  | applyAll =>
      cases stepped
      exact applyAll_sound orderly sound
  | settle i registered error =>
      obtain ⟨run, change, rest, lookup, pending, rfl⟩ := settle_cases stepped
      exact settle_sound lookup pending sound

end Session

end Univiz.Staging
