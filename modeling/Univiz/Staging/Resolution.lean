import Univiz.Staging.Session

namespace Univiz.Staging

open Univiz.Data

/-! What the hooks of a run find for the temp ids of the entities that the run creates. -/

section sorting

variable {α : Type} {r : α → α → Prop} [DecidableRel r] {values : List α} {p : α → Bool}

/-- Sorting keeps the order of the values that count as equal. -/
theorem filter_insertionSort (alike : ∀ a b, p a → p b → r a b) :
    (values.insertionSort r).filter p = values.filter p := by
  have sorted : (values.filter p).Pairwise r := by
    apply List.pairwise_of_forall_mem_list
    intro a member b member'
    exact alike a b (List.mem_filter.mp member).2 (List.mem_filter.mp member').2
  have inside : (values.filter p).Sublist (values.insertionSort r) :=
    List.sublist_insertionSort sorted List.filter_sublist
  have selected := inside.filter p
  rw [List.filter_filter] at selected
  simp only [Bool.and_self] at selected
  have lengths := ((List.perm_insertionSort r values).filter p).length_eq
  exact (selected.eq_of_length lengths.symm).symm

end sorting

instance : Std.Total AppliedFirst where
  total a b := by
    unfold AppliedFirst
    dsimp only
    split <;> split <;> omega

instance : IsTrans StagedChange AppliedFirst where
  trans a b c first second := by
    unfold AppliedFirst at first second ⊢
    dsimp only at first second ⊢
    split at first <;> split at second <;> split <;> omega

/-- A change has been staged after another one: later, or at the same time and not before
it in the list. -/
def StagedAfter (list : List StagedChange) (create change : StagedChange) : Prop :=
  create.timestamp < change.timestamp ∨
    create.timestamp = change.timestamp ∧ create ≠ change ∧ ¬ [change, create].Sublist list

instance (list : List StagedChange) : DecidableRel (StagedAfter list) :=
  fun _ _ => inferInstanceAs (Decidable (_ ∨ _ ∧ _ ∧ ¬ _))

namespace Run

def sorted (run : Run) : List StagedChange := run.list.insertionSort AppliedFirst

/-- A hook has been called by the run and has succeeded. -/
def Applied (run : Run) (change : StagedChange) : Prop :=
  change ∈ run.calls.map Call.change ∧ change ∉ run.pending ∧
    change.token ∉ run.remaining.map StagedChange.token

instance (run : Run) : DecidablePred run.Applied :=
  fun _ => inferInstanceAs (Decidable (_ ∧ _ ∧ _))

variable {run : Run} {create change : StagedChange} {before after : List StagedChange}

/-- The hooks of new entities and edges come after those of the entities staged before. -/
theorem mem_before (placed : run.sorted = before ++ change :: after) (listed : create ∈ run.list)
    (creates : create.type = .createEntity)
    (late : change.type = .createEntity ∨ change.type = .createEdge)
    (staged : StagedAfter run.list create change) : create ∈ before := by
  have member : create ∈ run.sorted := (List.mem_insertionSort AppliedFirst).mpr listed
  rw [placed] at member
  rcases List.mem_append.mp member with early | rest
  · exact early
  · exfalso
    have apart : create ≠ change := by
      rintro rfl
      rcases staged with less | ⟨-, differ, -⟩
      · exact Nat.lt_irrefl _ less
      · exact differ rfl
    have behind : create ∈ after := (List.mem_cons.mp rest).resolve_left apart
    have pair : [change, create].Sublist run.sorted := by
      rw [placed]
      have tail := (List.singleton_sublist.mpr behind).cons_cons change
      exact tail.trans (List.sublist_append_right _ _)
    have order : AppliedFirst change create :=
      List.rel_of_pairwise_cons (List.Pairwise.sublist pair
        (List.pairwise_insertionSort AppliedFirst run.list)) (List.mem_singleton_self _)
    have groups : change.type = .createEntity ∧ change.timestamp ≤ create.timestamp := by
      unfold AppliedFirst at order
      rcases late with entity | edge
      · simp only [entity, creates, ne_eq, not_true_eq_false, ↓reduceIte] at order
        exact ⟨entity, order⟩
      · simp [edge, creates, applyOrderGroup] at order
    obtain ⟨entity, notLater⟩ := groups
    rcases staged with less | ⟨same, -, notBehind⟩
    · omega
    · apply notBehind
      have stable : run.sorted.filter (fun other => other = create ∨ other = change) =
          run.list.filter fun other => other = create ∨ other = change := by
        apply filter_insertionSort
        intro a b isA isB
        have key : ∀ other, decide (other = create ∨ other = change) = true →
            other.type = .createEntity ∧ other.timestamp = create.timestamp := by
          intro other chosen
          rcases of_decide_eq_true chosen with rfl | rfl
          · exact ⟨creates, rfl⟩
          · exact ⟨entity, same.symm⟩
        obtain ⟨typeA, timeA⟩ := key a isA
        obtain ⟨typeB, timeB⟩ := key b isB
        simp [AppliedFirst, typeA, typeB, timeA, timeB]
      have chosen := pair.filter fun other => other = create ∨ other = change
      rw [stable] at chosen
      simp only [List.filter_cons, or_true, true_or, decide_true, ↓reduceIte,
        List.filter_nil] at chosen
      exact chosen.trans List.filter_sublist

/-- What is known of a creation that has been awaited: it is to be put back, or its temp
id has been registered. -/
def Known (realId : String → String) (run : Run) (map : String → Option String)
    (create : StagedChange) : Prop :=
  create.token ∈ run.remaining.map StagedChange.token ∨
    map create.targetId = some (realId create.targetId)

/-- The creations in front of a place of the order are known. -/
def KnownBefore (realId : String → String) (run : Run) (map : String → Option String)
    (place : List StagedChange) : Prop :=
  ∃ before, run.sorted = before ++ place ∧
    ∀ create ∈ before, create.type = .createEntity → create.apply ≠ none →
      Known realId run map create

structure Registered (realId : String → String) (run : Run) : Prop where
  pending : KnownBefore realId run run.tempIdMap run.pending
  calls : ∀ call ∈ run.calls, ∃ after,
    KnownBefore realId run call.resolveTempId (call.change :: after)

variable {realId : String → String} {map : String → Option String}
  {registered : List (String × String)} {rest : List StagedChange} {error : Option String}

theorem registerTempIdResolution_of_mem (real : ∀ pair ∈ registered, pair.2 = realId pair.1)
    {tempId : String} (found : map tempId = some (realId tempId) ∨
      ∃ pair ∈ registered, pair.1 = tempId) :
    registered.foldl registerTempIdResolution map tempId = some (realId tempId) := by
  induction registered generalizing map with
  | nil =>
      rcases found with old | ⟨_, member, _⟩
      · exact old
      · cases member
  | cons pair rest ih =>
      obtain ⟨first, later⟩ := List.forall_mem_cons.mp real
      apply ih later
      by_cases here : pair.1 = tempId
      · left
        rw [registerTempIdResolution, ← here, Function.update_self, first]
      · rcases found with old | ⟨other, member, same⟩
        · left
          rw [registerTempIdResolution, Function.update_of_ne (Ne.symm here), old]
        · rcases List.mem_cons.mp member with rfl | member
          · exact absurd same here
          · exact .inr ⟨other, member, same⟩

theorem KnownBefore.mono {next : Run} {map' : String → Option String}
    (known : KnownBefore realId run map rest) (list : next.list = run.list)
    (remaining : run.remaining.map StagedChange.token ⊆ next.remaining.map StagedChange.token)
    (kept : ∀ tempId, map tempId = some (realId tempId) → map' tempId = some (realId tempId)) :
    KnownBefore realId next map' rest := by
  obtain ⟨before, placed, all⟩ := known
  refine ⟨before, ?_, ?_⟩
  · rw [sorted, list]
    exact placed
  · intro create member creates hooked
    exact (all create member creates hooked).imp (fun back => remaining back)
      (kept create.targetId)

theorem KnownBefore.drop (known : KnownBefore realId run map rest) :
    KnownBefore realId run map (rest.dropWhile fun change => change.apply.isNone) := by
  obtain ⟨before, placed, all⟩ := known
  refine ⟨before ++ rest.takeWhile fun change => change.apply.isNone, ?_, ?_⟩
  · rw [List.append_assoc, List.takeWhile_append_dropWhile, placed]
  · intro create member creates hooked
    rcases List.mem_append.mp member with old | passed
    · exact all create old creates hooked
    · have without := List.mem_takeWhile_imp passed
      exact absurd (Option.isNone_iff_eq_none.mp without) hooked

theorem start_registered (changes : List StagedChange) :
    Registered realId (Run.start changes) := by
  have pending : (Run.start changes).pending =
      (changes.insertionSort AppliedFirst).dropWhile fun change => change.apply.isNone :=
    skip_pending
  have list : (Run.start changes).list = changes := skip_list
  have known : KnownBefore realId (Run.start changes) (fun _ => none)
      (changes.insertionSort AppliedFirst) := by
    refine ⟨[], ?_, ?_⟩
    · rw [sorted, list, List.nil_append]
    · intro create member
      cases member
  have map : (Run.start changes).tempIdMap = fun _ => none := skip_tempIdMap
  constructor
  · rw [pending, map]
    exact known.drop
  · intro call member
    have called : (Run.start changes).calls = [] ++ ((Run.start changes).pending.head?.map
        fun change => ⟨change, fun _ => none⟩).toList := skip_calls
    rw [called, List.nil_append, Option.mem_toList] at member
    obtain ⟨head, first, rfl⟩ := Option.map_eq_some_iff.mp member
    obtain ⟨after, whole⟩ := List.head?_eq_some_iff.mp first
    refine ⟨after, ?_⟩
    rw [← whole, pending]
    exact known.drop

theorem settle_registered (known : Registered realId run) (pending : run.pending = change :: rest)
    (real : ∀ pair ∈ registered, pair.2 = realId pair.1)
    (creation : change.type = .createEntity → error = none →
      ∃ pair ∈ registered, pair.1 = change.targetId) :
    Registered realId (run.settle change rest registered error) := by
  have remaining : run.remaining.map StagedChange.token ⊆
      (run.settle change rest registered error).remaining.map StagedChange.token := by
    rw [settle_remaining, List.map_append]
    exact List.subset_append_left _ _
  have kept : ∀ tempId, run.tempIdMap tempId = some (realId tempId) →
      registered.foldl registerTempIdResolution run.tempIdMap tempId = some (realId tempId) :=
    fun tempId found => registerTempIdResolution_of_mem real (.inl found)
  have next : KnownBefore realId (run.settle change rest registered error)
      (registered.foldl registerTempIdResolution run.tempIdMap) rest := by
    obtain ⟨before, placed, all⟩ := known.pending.mono settle_list remaining kept
    rw [pending] at placed
    refine ⟨before ++ [change], by rw [placed, List.append_assoc, List.singleton_append], ?_⟩
    intro create member creates hooked
    rcases List.mem_append.mp member with old | new
    · exact all create old creates hooked
    · cases List.mem_singleton.mp new
      cases error with
      | none =>
          right
          exact registerTempIdResolution_of_mem real (.inr (creation creates rfl))
      | some message =>
          left
          rw [settle_remaining, List.map_append]
          exact List.mem_append_right _ List.mem_cons_self
  constructor
  · rw [settle_pending, settle_tempIdMap]
    exact next.drop
  · intro call member
    rw [settle_calls] at member
    rcases List.mem_append.mp member with old | new
    · obtain ⟨after, before⟩ := known.calls call old
      exact ⟨after, before.mono settle_list remaining fun _ found => found⟩
    · rw [Option.mem_toList] at new
      obtain ⟨head, first, rfl⟩ := Option.map_eq_some_iff.mp new
      obtain ⟨after, whole⟩ := List.head?_eq_some_iff.mp first
      refine ⟨after, ?_⟩
      rw [← whole, settle_pending]
      exact next.drop

/-- A hook that creates an entity or an edge finds the real id of every entity of the list
that was staged before and whose creation does not fail. -/
def Resolves (realId : String → String) (run : Run) : Prop :=
  ∀ call ∈ run.calls, call.change.type = .createEntity ∨ call.change.type = .createEdge →
    ∀ create ∈ run.list, create.type = .createEntity → create.apply ≠ none →
      StagedAfter run.list create call.change →
        create.token ∉ run.remaining.map StagedChange.token →
          call.resolveTempId create.targetId = some (realId create.targetId)

theorem Registered.resolves (known : Registered realId run) : run.Resolves realId := by
  intro call member late create listed creates hooked staged succeeds
  obtain ⟨after, before, placed, all⟩ := known.calls call member
  have earlier := mem_before placed listed creates late staged
  exact (all create earlier creates hooked).resolve_left succeeds

end Run

namespace Session

/-- The hooks register real ids only, and a creation that succeeds registers the one of
its temp id. -/
def Registers (realId : String → String) (session : Session) : Event → Prop
  | .settle i registered error => (∀ pair ∈ registered, pair.2 = realId pair.1) ∧
      ∀ run ∈ session.runs[i]?, ∀ change ∈ run.pending.head?,
        change.type = .createEntity → error = none →
          ∃ pair ∈ registered, pair.1 = change.targetId
  | _ => True

instance (realId : String → String) (session : Session) :
    DecidablePred (session.Registers realId)
  | .settle i registered error => inferInstanceAs (Decidable
      ((∀ pair ∈ registered, pair.2 = realId pair.1) ∧
        ∀ run ∈ session.runs[i]?, ∀ change ∈ run.pending.head?,
          change.type = .createEntity → error = none →
            ∃ pair ∈ registered, pair.1 = change.targetId))
  | .stage _ _ | .stageOrReplace _ _ _ | .discard _ => isTrue trivial
  | .discardAll | .undo | .redo | .applyAll => isTrue trivial

variable {realId : String → String} {session next : Session} {event : Event}

theorem step_registered (known : ∀ run ∈ session.runs, run.Registered realId)
    (registers : session.Registers realId event) (stepped : session.step event = some next) :
    ∀ run ∈ next.runs, run.Registered realId := by
  cases event with
  | stage input now =>
      cases stepped
      exact known
  | stageOrReplace matcher input now =>
      simp only [step, stageOrReplace] at stepped
      split at stepped <;> cases stepped <;> exact known
  | discard changeId =>
      cases stepped
      exact known
  | discardAll =>
      cases stepped
      exact known
  | undo =>
      cases stepped
      exact known
  | redo =>
      cases stepped
      exact known
  | applyAll =>
      simp only [step, applyAll] at stepped
      split at stepped
      · cases stepped
        exact known
      · cases stepped
        intro run member
        rcases List.mem_append.mp member with old | new
        · exact known run old
        · cases List.mem_singleton.mp new
          exact Run.start_registered session.store.changes
  | settle i registered error =>
      obtain ⟨found, change, rest, lookup, pending, rfl⟩ := settle_cases stepped
      obtain ⟨real, creation⟩ := registers
      intro run member
      rcases List.mem_or_eq_of_mem_set member with old | rfl
      · exact known run old
      · apply Run.settle_registered (known found (List.mem_of_getElem? lookup)) pending real
        exact creation found lookup change (by rw [pending]; rfl)

/-- In every run of the store, the hooks of new entities and edges resolve the temp ids of
the entities that were staged before in the same list and whose creation does not fail. -/
theorem creations_resolve (realId : String → String) (events : List Event) (last : Session)
    (registers : Meets step (Registers realId) empty events)
    (ran : run step empty events = some last) : ∀ run ∈ last.runs, run.Resolves realId := by
  have known : ∀ run ∈ last.runs, run.Registered realId := by
    apply run_invariant (fun session => ∀ run ∈ session.runs, run.Registered realId) _ _
      registers ran
    · intro session event next known registers stepped
      exact step_registered known registers stepped
    · intro run member
      cases member
  exact fun run member => (known run member).resolves

def tableAndEdge : List Event :=
  [.stage ⟨.createEntity, "temp", true, none⟩ 0, .stage ⟨.createEdge, "edge", true, none⟩ 0,
    .applyAll, .settle 0 [("temp", "urn")] none, .settle 0 [] (some "offline")]

theorem tableAndEdge_resolve : ∃ last, run step empty tableAndEdge = some last ∧
    ∀ run ∈ last.runs, run.Resolves fun _ => "urn" := by
  have registers : Meets step (Registers fun _ => "urn") empty tableAndEdge := by decide
  have ran : (run step empty tableAndEdge).isSome := by decide
  obtain ⟨last, reached⟩ := Option.isSome_iff_exists.mp ran
  exact ⟨last, reached, creations_resolve _ tableAndEdge last registers reached⟩

/-- No run begins before the last one has ended. -/
def Sequential (session : Session) : Event → Prop
  | .applyAll => ∀ run ∈ session.runs, run.pending = []
  | _ => True

instance (session : Session) : DecidablePred session.Sequential
  | .applyAll => inferInstanceAs (Decidable (∀ run ∈ session.runs, run.pending = []))
  | .stage _ _ | .stageOrReplace _ _ _ | .discard _ => isTrue trivial
  | .discardAll | .undo | .redo | .settle _ _ _ => isTrue trivial

/-- Every hook finds the real id of every entity that was staged before and whose creation
succeeds in the same run or in an earlier one. -/
def ResolveAll (realId : String → String) (session : Session) : Prop :=
  ∀ (i : Nat) (run : Run), session.runs[i]? = some run →
    ∀ call ∈ run.calls, ∀ create : StagedChange, create.type = .createEntity →
      StagedAfter run.list create call.change →
        (∃ j ≤ i, ∃ other : Run, session.runs[j]? = some other ∧ other.Applied create) →
          call.resolveTempId create.targetId = some (realId create.targetId)

/-- A new entity is renamed: the hook of the renaming comes first. -/
theorem renaming_not_resolve :
    ¬ ∀ (realId : String → String) (events : List Event) (last : Session),
      Meets step (fun session event => session.Sequential event ∧ session.Registers realId event)
        empty events →
      run step empty events = some last → last.ResolveAll realId := by
  intro always
  have registers : Meets step
      (fun session event => session.Sequential event ∧ session.Registers (fun _ => "urn") event)
      empty [.stage ⟨.createEntity, "temp", true, none⟩ 0,
        .stage ⟨.renameEntity, "temp", true, none⟩ 1, .applyAll, .settle 0 [] none,
        .settle 0 [("temp", "urn")] none] := by decide
  have ran : (run step empty [.stage ⟨.createEntity, "temp", true, none⟩ 0,
      .stage ⟨.renameEntity, "temp", true, none⟩ 1, .applyAll, .settle 0 [] none,
      .settle 0 [("temp", "urn")] none]).isSome := by decide
  obtain ⟨last, reached⟩ := Option.isSome_iff_exists.mp ran
  have resolve := always _ _ last registers reached
  cases reached
  have created : (none : Option String) = some "urn" :=
    resolve 0 _ rfl ⟨⟨1, 1, .renameEntity, "temp", some ⟨1, 1⟩, 1, none⟩, fun _ => none⟩
      List.mem_cons_self ⟨0, 0, .createEntity, "temp", some ⟨0, 0⟩, 0, none⟩ rfl (by decide)
      ⟨0, Nat.le_refl 0, _, rfl, by decide⟩
  cases created

end Session

end Univiz.Staging
