import Univiz.Reference.Assignments

namespace Univiz.Reference

open Univiz.Data

/-! When a containment child is never in a different layer from its parent. -/

namespace ReferenceModelState

variable {Config : Type} {state next : ReferenceModelState Config} {operation : Operation}
  {entityId parentId layerId : String} {entityIds moved : List String}

def layerOf (state : ReferenceModelState Config) (id : String) : Option String :=
  (state.effectiveAssignments.get id).map (·.layerId)

/-- An entity and its parent, when both have an effective assignment, are in the same
layer. -/
def Aligned (state : ReferenceModelState Config) : Prop :=
  ∀ entry ∈ state.parentMap.entries, ∀ layer ∈ state.layerOf entry.1,
    ∀ parentLayer ∈ state.layerOf entry.2, layer = parentLayer

/-- A bulk assignment takes along the children of what it moves, unless they are in the
layer already.  The checks pass over a parent with an empty id, so what such a parent
contains moves only to its layer or together with it. -/
def TakesAlong (state : ReferenceModelState Config) : Operation → Prop
  | .assignEntityToLayer entityId layerId _ _ =>
      state.parentMap.get entityId = some "" → state.elsewhere "" layerId = true →
        "" ∈ state.descendants entityId
  | .bulkAssignEntitiesToLayer entityIds layerId _ =>
      ∀ id ∈ state.allowedIds layerId entityIds,
        (∀ child ∈ state.children id, state.elsewhere child layerId = true →
          child ∈ state.allowedIds layerId entityIds) ∧
        (state.parentMap.get id = some "" → state.elsewhere "" layerId = true →
          "" ∈ state.allowedIds layerId entityIds)
  | .removeEntityAssignment _ | .removeElements _ _ => True

/-- The condition on the calls that return. -/
def Careful (state : ReferenceModelState Config) (operation : Operation) : Prop :=
  (state.step operation).isSome = true → state.TakesAlong operation

instance (state : ReferenceModelState Config) : Decidable state.Aligned :=
  inferInstanceAs (Decidable (∀ entry ∈ state.parentMap.entries, ∀ layer ∈ state.layerOf entry.1,
    ∀ parentLayer ∈ state.layerOf entry.2, layer = parentLayer))

instance (state : ReferenceModelState Config) :
    (operation : Operation) → Decidable (state.TakesAlong operation)
  | .assignEntityToLayer entityId layerId _ _ =>
      inferInstanceAs (Decidable (state.parentMap.get entityId = some "" →
        state.elsewhere "" layerId = true → "" ∈ state.descendants entityId))
  | .bulkAssignEntitiesToLayer entityIds layerId _ =>
      inferInstanceAs (Decidable (∀ id ∈ state.allowedIds layerId entityIds,
        (∀ child ∈ state.children id, state.elsewhere child layerId = true →
          child ∈ state.allowedIds layerId entityIds) ∧
        (state.parentMap.get id = some "" → state.elsewhere "" layerId = true →
          "" ∈ state.allowedIds layerId entityIds)))
  | .removeEntityAssignment _ | .removeElements _ _ => isTrue trivial

instance (state : ReferenceModelState Config) (operation : Operation) :
    Decidable (state.Careful operation) :=
  inferInstanceAs (Decidable ((state.step operation).isSome = true → state.TakesAlong operation))

theorem elsewhere_eq_true : state.elsewhere entityId layerId = true ↔
    ∃ layer ∈ state.layerOf entityId, layer ≠ layerId := by
  unfold elsewhere layerOf
  cases state.effectiveAssignments.get entityId with
  | none => simp
  | some assignment => simp

theorem elsewhere_eq_false : state.elsewhere entityId layerId = false ↔
    ∀ layer ∈ state.layerOf entityId, layer = layerId := by
  rw [← Bool.not_eq_true, elsewhere_eq_true]
  simp only [not_exists, not_and, not_not]

theorem mem_children : entityId ∈ state.children parentId ↔
    state.parentMap.get entityId = some parentId := by
  simp only [children, mem_successors, containments, List.mem_map, Prod.mk.injEq, Prod.exists,
    OrderedMap.get_eq_some]
  refine ⟨?_, ?_⟩
  · rintro ⟨child, parent, member, rfl, rfl⟩
    exact member
  · intro member
    exact ⟨entityId, parentId, member, rfl, rfl⟩

/-- A parent that is not the empty id keeps its children. -/
theorem elsewhere_of_unlocked (unlocked : state.containmentLock entityId layerId = none)
    (contained : state.parentMap.get entityId = some parentId) (named : parentId ≠ "") :
    state.elsewhere parentId layerId = false := by
  simp only [containmentLock, contained, named, ↓reduceIte] at unlocked
  simp only [elsewhere]
  cases found : state.effectiveAssignments.get parentId with
  | none => rfl
  | some assignment =>
      simp only [found] at unlocked ⊢
      split at unlocked
      · cases unlocked
      · rename_i same
        exact decide_eq_false same

theorem unlocked_of_empty (contained : state.parentMap.get entityId = some "") :
    state.containmentLock entityId layerId = none := by
  simp only [containmentLock, contained, ↓reduceIte]

theorem unlocked_of_allowed (allowed : entityId ∈ state.allowedIds layerId entityIds) :
    state.containmentLock entityId layerId = none :=
  Option.isNone_iff_eq_none.mp (List.mem_filter.mp allowed).2

theorem descendants_closure (state : ReferenceModelState Config) (entityId : String) :
    Closure state.children (state.children entityId) (state.descendants entityId) :=
  closure_traverse

/-- A call that returns has moved some entities to a layer and left the others. -/
structure Moves (state next : ReferenceModelState Config) (moved : List String)
    (layerId : String) : Prop where
  parentMap : next.parentMap = state.parentMap
  layerOf : ∀ id, next.layerOf id = if id ∈ moved then some layerId else state.layerOf id

/-- The layers agree again exactly if no pair of which one has moved is apart. -/
theorem Moves.aligned_moved (moves : Moves state next moved layerId) (aligned : state.Aligned) :
    next.Aligned ↔ ∀ entry ∈ state.parentMap.entries,
      (entry.1 ∈ moved → entry.2 ∉ moved → state.elsewhere entry.2 layerId = false) ∧
      (entry.2 ∈ moved → entry.1 ∉ moved → state.elsewhere entry.1 layerId = false) := by
  simp only [Aligned]
  rw [moves.parentMap]
  apply forall₂_congr
  intro entry member
  have before := aligned entry member
  rw [moves.layerOf, moves.layerOf, elsewhere_eq_false, elsewhere_eq_false]
  by_cases child : entry.1 ∈ moved <;> by_cases parent : entry.2 ∈ moved
  · simp [child, parent]
  · simp [child, parent, eq_comm]
  · simp [child, parent]
  · simp only [child, parent, ↓reduceIte, false_implies, and_self, iff_true]
    exact before

theorem aligned_of_fewer (aligned : state.Aligned) (same : next.parentMap = state.parentMap)
    (fewer : ∀ id, ∀ layer ∈ next.layerOf id, layer ∈ state.layerOf id) : next.Aligned := by
  intro entry member layer assigned parentLayer parentAssigned
  rw [same] at member
  exact aligned entry member layer (fewer _ _ assigned) parentLayer (fewer _ _ parentAssigned)

theorem report_layerOf {conflict : AssignmentConflict} (id : String) :
    (state.report conflict).layerOf id = state.layerOf id := by
  simp only [layerOf, report, set_effectiveAssignments, Option.getD_none]

theorem report_parentMap {conflict : AssignmentConflict} :
    (state.report conflict).parentMap = state.parentMap := by
  simp only [report, set_parentMap, Option.getD_none]

theorem Aligned.report {conflict : AssignmentConflict} (aligned : state.Aligned) :
    (state.report conflict).Aligned := by
  apply aligned_of_fewer aligned report_parentMap
  intro id layer assigned
  rwa [report_layerOf] at assigned

theorem assign_cases {logicalNodeId : Option String} {inheritsChildren : Bool}
    {result : AssignResult} (assigned : state.assignEntityToLayer entityId layerId logicalNodeId
      inheritsChildren = some (next, result)) :
    (∃ conflict, state.containmentLock entityId layerId = some conflict ∧
        next = state.report conflict) ∨
      state.containmentLock entityId layerId = none ∧
        Moves state next (entityId :: state.descendantsToReassign entityId layerId) layerId := by
  simp only [assignEntityToLayer] at assigned
  split at assigned
  · rename_i conflict locked
    cases assigned
    exact .inl ⟨conflict, locked, rfl⟩
  · rename_i unlocked
    obtain ⟨conflict, -, written⟩ := Option.map_eq_some_iff.mp assigned
    cases written
    refine .inr ⟨unlocked, ?_, ?_⟩
    · rw [set_parentMap]
      split <;> simp only [assignUpdate, Option.getD_none, report_parentMap]
    · intro id
      simp only [layerOf, set_effectiveAssignments, assignUpdate, Option.getD_some,
        OrderedMap.get_foldl_set, OrderedMap.get_set, List.mem_cons]
      by_cases follows : id ∈ state.descendantsToReassign entityId layerId
      · simp [follows]
      · by_cases here : id = entityId
        · subst here
          simp [follows]
        · have apart : entityId ≠ id := fun equal => here equal.symm
          simp [follows, here, apart]

theorem bulkAssign_moves {inheritsChildren : Bool} {result : BulkResult}
    (assigned : state.bulkAssignEntitiesToLayer layerId inheritsChildren entityIds =
      some (next, result)) : Moves state next (state.allowedIds layerId entityIds) layerId := by
  obtain ⟨checks, -, written⟩ := Option.map_eq_some_iff.mp assigned
  cases written
  refine ⟨?_, ?_⟩
  · simp only [set_parentMap, bulkUpdate, Option.getD_none]
  · intro id
    simp only [layerOf, set_effectiveAssignments, bulkUpdate, Option.getD_some,
      OrderedMap.get_foldl_set]
    split <;> rfl

theorem Aligned.removeEntityAssignment (aligned : state.Aligned) :
    (state.removeEntityAssignment entityId).Aligned := by
  apply aligned_of_fewer aligned
  · simp only [ReferenceModelState.removeEntityAssignment, set_parentMap, Option.getD_none]
  · intro id layer assigned
    simp only [layerOf, ReferenceModelState.removeEntityAssignment, set_effectiveAssignments,
      Option.getD_some, OrderedMap.get_erase] at assigned
    split at assigned
    · cases assigned
    · exact assigned

theorem Aligned.removeElements {nodeIds edgeIds : List String} (aligned : state.Aligned) :
    (state.removeElements nodeIds edgeIds).Aligned := by
  simp only [ReferenceModelState.removeElements]
  split
  · exact aligned
  · apply aligned_of_fewer aligned
    · simp only [set_parentMap, Option.getD_none]
    · intro id layer assigned
      simp only [layerOf, set_effectiveAssignments, Option.getD_some, OrderedMap.get_foldl_erase]
        at assigned
      split at assigned
      · cases assigned
      · exact assigned

theorem assign_aligned_iff (aligned : state.Aligned)
    (unlocked : state.containmentLock entityId layerId = none)
    (moves : Moves state next (entityId :: state.descendantsToReassign entityId layerId) layerId) :
    next.Aligned ↔ (state.parentMap.get entityId = some "" → state.elsewhere "" layerId = true →
      "" ∈ state.descendants entityId) := by
  have closure := state.descendants_closure entityId
  have reassigned : ∀ id ∈ state.descendants entityId,
      id ∉ entityId :: state.descendantsToReassign entityId layerId →
        state.elsewhere id layerId = false := by
    intro id follows stays
    rw [← Bool.not_eq_true]
    intro apart
    exact stays (List.mem_cons_of_mem _ (List.mem_filter.mpr ⟨follows, apart⟩))
  rw [moves.aligned_moved aligned]
  refine ⟨?_, ?_⟩
  · intro together contained apart
    have member := OrderedMap.get_eq_some.mp contained
    by_contra outside
    have other : "" ≠ entityId := by
      rintro rfl
      exact outside (closure.starts (mem_children.mpr contained))
    have stays : "" ∉ entityId :: state.descendantsToReassign entityId layerId := by
      intro inside
      rcases List.mem_cons.mp inside with equal | follows
      · exact other equal
      · exact outside (List.mem_filter.mp follows).1
    have agrees := (together _ member).1 List.mem_cons_self stays
    exact Bool.false_ne_true (agrees.symm.trans apart)
  · intro along ⟨child, parent⟩ member
    have contained := OrderedMap.get_eq_some.mpr member
    refine ⟨?_, ?_⟩
    · intro moved stays
      have cause : parent = entityId ∨ parent ∈ state.descendants entityId ∨ child = entityId := by
        rcases List.mem_cons.mp moved with here | follows
        · exact .inr (.inr here)
        · rcases closure.origin child (List.mem_filter.mp follows).1 with first | ⟨via, later, next⟩
          · have same := contained.symm.trans (mem_children.mp first)
            exact .inl (Option.some.inj same)
          · have same := contained.symm.trans (mem_children.mp next)
            exact .inr (.inl (Option.some.inj same ▸ later))
      rcases cause with rfl | follows | rfl
      · exact absurd List.mem_cons_self stays
      · exact reassigned parent follows stays
      · by_cases named : parent = ""
        · subst named
          rw [← Bool.not_eq_true]
          intro apart
          have agrees := reassigned "" (along contained apart) stays
          exact Bool.false_ne_true (agrees.symm.trans apart)
        · exact elsewhere_of_unlocked unlocked contained named
    · intro moved stays
      have follows : child ∈ state.descendants entityId := by
        rcases List.mem_cons.mp moved with rfl | follows
        · exact closure.starts (mem_children.mpr contained)
        · exact closure.closed parent (List.mem_filter.mp follows).1 (mem_children.mpr contained)
      exact reassigned child follows stays

theorem bulkAssign_aligned_iff (aligned : state.Aligned)
    (moves : Moves state next (state.allowedIds layerId entityIds) layerId) :
    next.Aligned ↔ ∀ id ∈ state.allowedIds layerId entityIds,
      (∀ child ∈ state.children id, state.elsewhere child layerId = true →
        child ∈ state.allowedIds layerId entityIds) ∧
      (state.parentMap.get id = some "" → state.elsewhere "" layerId = true →
        "" ∈ state.allowedIds layerId entityIds) := by
  rw [moves.aligned_moved aligned]
  refine ⟨?_, ?_⟩
  · intro together id allowed
    refine ⟨?_, ?_⟩
    · intro child contained apart
      by_contra stays
      have member := OrderedMap.get_eq_some.mp (mem_children.mp contained)
      have agrees := (together _ member).2 allowed stays
      exact Bool.false_ne_true (agrees.symm.trans apart)
    · intro contained apart
      by_contra stays
      have agrees := (together _ (OrderedMap.get_eq_some.mp contained)).1 allowed stays
      exact Bool.false_ne_true (agrees.symm.trans apart)
  · intro along ⟨child, parent⟩ member
    have contained := OrderedMap.get_eq_some.mpr member
    refine ⟨?_, ?_⟩
    · intro allowed stays
      by_cases named : parent = ""
      · subst named
        rw [← Bool.not_eq_true]
        intro apart
        exact stays ((along child allowed).2 contained apart)
      · exact elsewhere_of_unlocked (unlocked_of_allowed allowed) contained named
    · intro allowed stays
      rw [← Bool.not_eq_true]
      intro apart
      exact stays ((along parent allowed).1 child (mem_children.mpr contained) apart)

theorem Aligned.step_iff (aligned : state.Aligned) (operation : Operation) :
    (∀ next, state.step operation = some next → next.Aligned) ↔ state.Careful operation := by
  simp only [Careful]
  rw [Option.isSome_iff_exists]
  cases operation with
  | assignEntityToLayer entityId layerId logicalNodeId inheritsChildren =>
      refine ⟨?_, ?_⟩
      · intro all ⟨next, stepped⟩ contained
        obtain ⟨⟨after, result⟩, assigned, rfl⟩ := Option.map_eq_some_iff.mp stepped
        rcases assign_cases assigned with ⟨conflict, locked, -⟩ | ⟨unlocked, moves⟩
        · rw [unlocked_of_empty contained] at locked
          cases locked
        · exact (assign_aligned_iff aligned unlocked moves).mp (all _ stepped) contained
      · intro along next stepped
        obtain ⟨⟨after, result⟩, assigned, rfl⟩ := Option.map_eq_some_iff.mp stepped
        rcases assign_cases assigned with ⟨conflict, -, rfl⟩ | ⟨unlocked, moves⟩
        · exact aligned.report
        · exact (assign_aligned_iff aligned unlocked moves).mpr (along ⟨_, stepped⟩)
  | bulkAssignEntitiesToLayer entityIds layerId inheritsChildren =>
      refine ⟨?_, ?_⟩
      · intro all ⟨next, stepped⟩
        obtain ⟨⟨after, result⟩, assigned, rfl⟩ := Option.map_eq_some_iff.mp stepped
        exact (bulkAssign_aligned_iff aligned (bulkAssign_moves assigned)).mp (all _ stepped)
      · intro along next stepped
        obtain ⟨⟨after, result⟩, assigned, rfl⟩ := Option.map_eq_some_iff.mp stepped
        exact (bulkAssign_aligned_iff aligned (bulkAssign_moves assigned)).mpr
          (along ⟨_, stepped⟩)
  | removeEntityAssignment entityId =>
      refine ⟨fun _ _ => trivial, ?_⟩
      rintro - next stepped
      cases stepped
      exact aligned.removeEntityAssignment
  | removeElements nodeIds edgeIds =>
      refine ⟨fun _ _ => trivial, ?_⟩
      rintro - next stepped
      cases stepped
      exact aligned.removeElements

/-- From a state in which children are in the layers of their parents they stay so exactly
in the runs in which every assignment takes along what it has to. -/
theorem aligned_iff (aligned : state.Aligned) (operations : List Operation) :
    Always step Aligned state operations ↔ Meets step Careful state operations := by
  apply always_iff_meets fun _ => True
  · intro _ _ _ _ _
    trivial
  · intro state operation _ aligned
    exact aligned.step_iff operation
  · trivial
  · exact aligned

def assigned (id : String) : EntityAssignment := ⟨id, "bronze", none, none, false, none, 1⟩

/-- A schema and its table, both in the same layer. -/
def contained : ReferenceModelState Unit :=
  { initial with
    layers := [⟨"bronze", 0, none, none, ()⟩, ⟨"silver", 1, none, none, ()⟩]
    layerSequence := ["bronze", "silver"]
    parentMap := OrderedMap.empty.set "orders" "sales"
    effectiveAssignments :=
      (OrderedMap.empty.set "sales" (assigned "sales")).set "orders" (assigned "orders") }

theorem contained_aligned : contained.Aligned := by
  decide

/-- The schema moves without its table. -/
def separated : List Operation := [.bulkAssignEntitiesToLayer ["sales"] "silver" true]

theorem separated_apart :
    (run step contained separated).map (fun last => decide last.Aligned) = some false := by
  decide +kernel

theorem not_aligned : contained.Aligned ∧
    ¬ ∀ last, run step contained separated = some last → last.Aligned := by
  refine ⟨contained_aligned, ?_⟩
  intro always
  obtain ⟨last, ran, apart⟩ := Option.map_eq_some_iff.mp separated_apart
  exact absurd (always last ran) (of_decide_eq_false apart)

theorem aligned_iff_contained : Always step Aligned contained
    [.assignEntityToLayer "sales" "silver" none true, .removeElements ["sales"] []] :=
  (aligned_iff contained_aligned _).mpr (by decide +kernel)

end ReferenceModelState

end Univiz.Reference
