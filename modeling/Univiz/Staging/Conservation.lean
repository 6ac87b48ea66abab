import Univiz.Staging.Soundness

namespace Univiz.Staging

open Univiz.Data

/-! No staged change is lost, and no apply hook succeeds twice. -/

namespace Session

/-- A staged change is on the list or in the redo stack, or the user has given it up, or
its hook has succeeded if it has one. -/
def Accounted (session : Session) (token : Token) : Prop :=
  token ∈ tokens session.store.changes ∨ token ∈ tokens session.store.redoStack ∨
    token ∈ session.released ∨ ∀ hook ∈ token.2, hook ∈ session.succeeded

instance (session : Session) : DecidablePred session.Accounted :=
  fun _ => inferInstanceAs (Decidable (_ ∨ _ ∨ _ ∨ _))

structure Conserved (session : Session) : Prop where
  kept : ∀ token ∈ session.staged, session.Accounted token
  once : session.succeeded.Nodup

variable {session next : Session} {change : StagedChange} {edits : Nat}

theorem mem_tokens {changes : List StagedChange} (member : change ∈ changes) :
    change.token ∈ tokens changes := List.mem_map_of_mem member

theorem kept_of_moved (conserved : Conserved session)
    (fresh : ∀ token ∈ next.staged, token ∈ session.staged ∨ next.Accounted token)
    (listed : ∀ change ∈ session.store.changes, next.Accounted change.token)
    (undone : ∀ change ∈ session.store.redoStack, next.Accounted change.token)
    (released : session.released ⊆ next.released)
    (succeeded : session.succeeded ⊆ next.succeeded) :
    ∀ token ∈ next.staged, next.Accounted token := by
  intro token member
  rcases fresh token member with old | new
  · rcases conserved.kept token old with inList | inRedo | given | applied
    · obtain ⟨change, inside, rfl⟩ := List.mem_map.mp inList
      exact listed change inside
    · obtain ⟨change, inside, rfl⟩ := List.mem_map.mp inRedo
      exact undone change inside
    · exact .inr (.inr (.inl (released given)))
    · exact .inr (.inr (.inr fun hook own => succeeded (applied hook own)))
  · exact new

theorem stage_conserved (input : Input) (now : Nat) (conserved : Conserved session) :
    Conserved (session.stage input now) := by
  refine ⟨kept_of_moved conserved ?_ ?_ ?_ ?_ ?_, conserved.once⟩
  · intro token member
    rcases List.mem_append.mp member with old | new
    · exact .inl old
    · cases List.mem_singleton.mp new
      exact .inr (.inl (mem_tokens (List.mem_append_right _ List.mem_cons_self)))
  · intro change member
    exact .inl (mem_tokens (List.mem_append_left _ member))
  · intro change member
    exact .inr (.inr (.inl (List.mem_append_right _ (mem_tokens member))))
  · exact List.subset_append_left _ _
  · exact List.Subset.refl _

theorem stageOrReplace_conserved (matcher : StagedChange → Bool) (input : Input) (now : Nat)
    (conserved : Conserved session) :
    Conserved (session.stageOrReplace matcher input now) := by
  simp only [stageOrReplace]
  split
  · rename_i existing found
    rw [Store.stageOrReplace_found found]
    refine ⟨kept_of_moved conserved ?_ ?_ ?_ ?_ ?_, conserved.once⟩
    · intro token member
      rcases List.mem_append.mp member with old | new
      · exact .inl old
      · obtain ⟨change, inside, rfl⟩ := List.mem_map.mp new
        obtain ⟨old, replaced, rfl⟩ := List.mem_map.mp inside
        obtain ⟨listed, same⟩ := List.mem_filter.mp replaced
        right
        left
        apply mem_tokens
        exact List.mem_map.mpr ⟨old, listed, if_pos (of_decide_eq_true same)⟩
    · intro change member
      by_cases same : change.id = existing.id
      · have replaced : change ∈ session.store.changes.filter fun change =>
            change.id = existing.id := List.mem_filter.mpr ⟨member, decide_eq_true same⟩
        exact .inr (.inr (.inl (List.mem_append_right _ (mem_tokens replaced))))
      · left
        apply mem_tokens
        exact List.mem_map.mpr ⟨change, member, if_neg same⟩
    · intro change member
      right
      left
      exact mem_tokens member
    · exact List.subset_append_left _ _
    · exact List.Subset.refl _
  · exact stage_conserved input now conserved

theorem discard_conserved (changeId : Nat) (conserved : Conserved session) :
    Conserved (session.discard changeId) := by
  refine ⟨kept_of_moved conserved (fun token member => .inl member) ?_ ?_ ?_ ?_, conserved.once⟩
  · intro change member
    by_cases same : change.id = changeId
    · have taken : change ∈ session.store.changes.filter fun change => change.id = changeId :=
        List.mem_filter.mpr ⟨member, decide_eq_true same⟩
      exact .inr (.inr (.inl (List.mem_append_right _ (mem_tokens taken))))
    · left
      apply mem_tokens
      unfold discard Store.discard
      dsimp only
      split
      · exact List.mem_filter.mpr ⟨member, decide_eq_true same⟩
      · exact member
  · intro change member
    right
    left
    apply mem_tokens
    unfold discard Store.discard
    dsimp only
    split
    · exact List.mem_append_left _ member
    · exact member
  · exact List.subset_append_left _ _
  · exact List.Subset.refl _

theorem discardAll_conserved (conserved : Conserved session) : Conserved session.discardAll := by
  refine ⟨kept_of_moved conserved (fun token member => .inl member) ?_ ?_ ?_ ?_, conserved.once⟩
  · intro change member
    exact .inr (.inr (.inl (List.mem_append_left _ (List.mem_append_right _ (mem_tokens member)))))
  · intro change member
    exact .inr (.inr (.inl (List.mem_append_right _ (mem_tokens member))))
  · intro token member
    exact List.mem_append_left _ (List.mem_append_left _ member)
  · exact List.Subset.refl _

theorem undo_conserved (conserved : Conserved session) : Conserved session.undo := by
  refine ⟨kept_of_moved conserved (fun token member => .inl member) ?_ ?_ (List.Subset.refl _)
    (List.Subset.refl _), conserved.once⟩
  · intro change member
    unfold Accounted undo Store.undo
    cases lookup : session.store.changes.getLast? with
    | none => exact .inl (mem_tokens member)
    | some last =>
        rw [← List.dropLast_append_getLast? last lookup] at member
        rcases List.mem_append.mp member with early | final
        · exact .inl (mem_tokens early)
        · exact .inr (.inl (mem_tokens (List.mem_append_right _ final)))
  · intro change member
    unfold Accounted undo Store.undo
    cases lookup : session.store.changes.getLast? with
    | none => exact .inr (.inl (mem_tokens member))
    | some last => exact .inr (.inl (mem_tokens (List.mem_append_left _ member)))

theorem redo_conserved (conserved : Conserved session) : Conserved session.redo := by
  refine ⟨kept_of_moved conserved (fun token member => .inl member) ?_ ?_ (List.Subset.refl _)
    (List.Subset.refl _), conserved.once⟩
  · intro change member
    unfold Accounted redo Store.redo
    cases lookup : session.store.redoStack.getLast? with
    | none => exact .inl (mem_tokens member)
    | some last => exact .inl (mem_tokens (List.mem_append_left _ member))
  · intro change member
    unfold Accounted redo Store.redo
    cases lookup : session.store.redoStack.getLast? with
    | none => exact .inr (.inl (mem_tokens member))
    | some last =>
        rw [← List.dropLast_append_getLast? last lookup] at member
        rcases List.mem_append.mp member with early | final
        · exact .inr (.inl (mem_tokens early))
        · exact .inl (mem_tokens (List.mem_append_right _ final))

theorem finish_accounted {store : Store} {runs : List Run} {succeeded : List Hook} {run : Run}
    (own : RunSound edits succeeded run) (inside : change ∈ store.changes)
    (orderly : run.pending = [] → change.apply ≠ none → change.token ∈ tokens run.list) :
    Accounted { session with
      store := store.finish run
      runs := runs
      succeeded := succeeded } change.token := by
  unfold Accounted Store.finish
  dsimp only
  split
  · rename_i finished
    by_cases hooked : change.apply = none
    · right
      right
      right
      intro hook member
      rw [StagedChange.token, hooked] at member
      cases member
    · obtain ⟨found, listed, same⟩ := List.mem_map.mp (orderly finished hooked)
      obtain ⟨hook, apply⟩ := Option.ne_none_iff_exists'.mp hooked
      have apply' : found.apply = some hook := (congrArg Prod.snd same).trans apply
      rcases own.covered found listed hook apply' with waiting | back | already
      · rw [finished] at waiting
        cases waiting
      · exact .inl (same ▸ back)
      · right
        right
        right
        intro other member
        have equal : other = hook := by
          rw [StagedChange.token, apply] at member
          exact (Option.some.inj member).symm
        exact equal ▸ already
  · exact .inl (mem_tokens inside)

theorem applyAll_conserved (orderly : session.Orderly .applyAll) (sound : Sound session)
    (conserved : Conserved session) : Conserved session.applyAll := by
  unfold applyAll
  split
  · exact conserved
  · have own := start_sound orderly sound
    refine ⟨kept_of_moved conserved (fun token member => .inl member) ?_ ?_ (List.Subset.refl _)
      (List.Subset.refl _), conserved.once⟩
    · intro change member
      dsimp only
      apply finish_accounted own
      · exact member
      · intro _ _
        have list : (Run.start session.store.changes).list = session.store.changes :=
          Run.skip_list
        rw [list]
        exact mem_tokens member
    · intro change member
      right
      left
      apply mem_tokens
      rw [Store.finish_redoStack]
      exact member

theorem settle_conserved {i : Nat} {run : Run} {rest : List StagedChange}
    {registered : List (String × String)} {error : Option String}
    (lookup : session.runs[i]? = some run) (pending : run.pending = change :: rest)
    (orderly : session.Orderly (.settle i registered error)) (sound : Sound session)
    (conserved : Conserved session) :
    Conserved { session with
      store := session.store.finish (run.settle change rest registered error)
      runs := session.runs.set i (run.settle change rest registered error)
      succeeded := succeededAfter session.succeeded change error } := by
  have running : run.pending ≠ [] := by simp [pending]
  have own := sound.running run (List.mem_of_getElem? lookup) running
  have inside := awaited_mem pending
  constructor
  · refine kept_of_moved conserved (fun token member => .inl member) ?_ ?_ (List.Subset.refl _) ?_
    · intro other member
      apply finish_accounted (settle_runSound own pending) member
      intro finished hooked
      rw [Run.settle_list]
      apply orderly run lookup _ other member hooked
      intro later waiting
      by_contra hooked'
      obtain ⟨hook, apply⟩ := Option.ne_none_iff_exists'.mp hooked'
      have ahead : later ∈ rest := by simpa [pending] using waiting
      have left : later ∈ (run.settle change rest registered error).pending :=
        Run.mem_settle_pending ahead apply
      rw [finished] at left
      cases left
    · intro other member
      right
      left
      apply mem_tokens
      rw [Store.finish_redoStack]
      exact member
    · intro hook member
      exact mem_succeededAfter.mpr (.inl member)
  · simp only [succeededAfter]
    split
    · refine List.nodup_append.mpr ⟨conserved.once, ?_, ?_⟩
      · cases change.apply <;> simp
      · intro hook already other awaited same
        subst same
        exact (own.unapplied change inside hook (Option.mem_toList.mp awaited)).2 already
    · exact conserved.once

theorem step_conserved (event : Event) (sound : Sound session) (conserved : Conserved session)
    (orderly : session.Orderly event) (stepped : session.step event = some next) :
    Conserved next := by
  cases event with
  | stage input now =>
      cases stepped
      exact stage_conserved input now conserved
  | stageOrReplace matcher input now =>
      cases stepped
      exact stageOrReplace_conserved matcher input now conserved
  | discard changeId =>
      cases stepped
      exact discard_conserved changeId conserved
  | discardAll =>
      cases stepped
      exact discardAll_conserved conserved
  | undo =>
      cases stepped
      exact undo_conserved conserved
  | redo =>
      cases stepped
      exact redo_conserved conserved
  | applyAll =>
      cases stepped
      exact applyAll_conserved orderly sound conserved
  | settle i registered error =>
      obtain ⟨run, change, rest, lookup, pending, rfl⟩ := settle_cases stepped
      exact settle_conserved lookup pending orderly sound conserved

/-- Whatever the user and the calls of `applyAll` do in whatever order, if all of it is
orderly then nothing is lost and no hook succeeds twice. -/
theorem runs_conserve (events : List Event) (last : Session)
    (orderly : Meets step Orderly empty events) (ran : run step empty events = some last) :
    Conserved last := by
  have start : Sound empty ∧ Conserved empty := by
    refine ⟨⟨?_, ?_, List.nodup_nil, ?_, ?_, ?_, List.Pairwise.nil⟩, ?_, List.nodup_nil⟩ <;>
      intro _ member <;> cases member
  have reached : Sound last ∧ Conserved last := by
    apply run_invariant (fun session => Sound session ∧ Conserved session) _ start orderly ran
    intro session event next ⟨sound, conserved⟩ orderly stepped
    exact ⟨step_sound event sound orderly stepped,
      step_conserved event sound conserved orderly stepped⟩
  exact reached.2

/-- A new edge between an old entity and a new one, whose creation fails at first. -/
def retried : List Event :=
  [.stage ⟨.createEntity, "temp", true, none⟩ 0, .stage ⟨.createEdge, "edge", true, none⟩ 1,
    .undo, .redo, .applyAll, .settle 0 [] (some "offline"), .settle 0 [] none,
    .applyAll, .settle 1 [("temp", "urn")] none]

theorem retried_conserve : ∃ last, run step empty retried = some last ∧ Conserved last := by
  have orderly : Meets step Orderly empty retried := by decide
  have ran : (run step empty retried).isSome := by decide
  obtain ⟨last, reached⟩ := Option.isSome_iff_exists.mp ran
  exact ⟨last, reached, runs_conserve retried last orderly reached⟩

/-- A change is staged while the hook of another one is awaited. -/
theorem runs_not_conserve :
    ¬ ∀ (events : List Event) (last : Session), run step empty events = some last →
      Conserved last := by
  intro conserve
  have ran : (run step empty [.stage ⟨.createEntity, "temp", true, none⟩ 0, .applyAll,
      .stage ⟨.deleteEdge, "edge", true, none⟩ 1, .settle 0 [] none]).isSome := by decide
  obtain ⟨last, reached⟩ := Option.isSome_iff_exists.mp ran
  have lost := (conserve _ last reached).kept
  cases reached
  revert lost
  decide

end Session

end Univiz.Staging
