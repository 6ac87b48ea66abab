import Univiz.Reference.Containment

namespace Univiz.Reference

open Univiz.Data

/-! What `checkAssignmentConflict` finds, and when it returns. -/

namespace ReferenceModelState

variable {Config : Type} {state : ReferenceModelState Config} {entityId layerId other : String}

def Contained (state : ReferenceModelState Config) (child parent : String) : Prop :=
  state.parentMap.get child = some parent

/-- No proper ancestor hands on another layer, and no proper descendant is assigned to one. -/
def FreeOfConflicts (state : ReferenceModelState Config) (entityId layerId : String) : Prop :=
  (∀ ancestor, Relation.TransGen state.Contained entityId ancestor →
    ∀ assignment ∈ state.instanceAssignments.get ancestor, assignment.inheritsChildren = true →
      assignment.layerId = layerId) ∧
  ∀ descendant, Relation.TransGen state.Contained descendant entityId →
    ∀ assignment ∈ state.instanceAssignments.get descendant, assignment.layerId = layerId

/-- Both calls return, and the check is right. -/
structure ChecksConflicts (state : ReferenceModelState Config) (entityId layerId : String) :
    Prop where
  assigns : ∀ logicalNodeId inheritsChildren, ∃ result,
    state.assignEntityToLayer entityId layerId logicalNodeId inheritsChildren = some result
  verdict : ∃ found, state.checkAssignmentConflict entityId layerId = some found ∧
    (found = none ↔ state.FreeOfConflicts entityId layerId)

/-- The ancestors of the entity do not run in a circle, or one of them hands on another layer. -/
def ClimbStops (state : ReferenceModelState Config) (entityId layerId : String) : Prop :=
  (∀ ancestor, Relation.ReflTransGen state.Contained entityId ancestor →
    ¬ Relation.TransGen state.Contained ancestor ancestor) ∨
  ∃ ancestor, Relation.TransGen state.Contained entityId ancestor ∧
    ∃ assignment ∈ state.instanceAssignments.get ancestor, assignment.inheritsChildren = true ∧
      assignment.layerId ≠ layerId

theorem assignedElsewhere_eq_none : state.assignedElsewhere layerId other = none ↔
    ∀ assignment ∈ state.instanceAssignments.get other, assignment.layerId = layerId := by
  simp [assignedElsewhere, Option.filter_eq_none_iff]

theorem parentConflict_eq_none : state.parentConflict entityId layerId other = none ↔
    ∀ assignment ∈ state.instanceAssignments.get other, assignment.inheritsChildren = true →
      assignment.layerId = layerId := by
  rw [parentConflict, Option.map_eq_none_iff, Option.filter_eq_none_iff]
  cases found : state.instanceAssignments.get other with
  | none => simp [assignedElsewhere, found]
  | some assignment =>
      by_cases here : assignment.layerId = layerId
      · simp [assignedElsewhere, found, here]
      · simp [assignedElsewhere, found, here]

/-- The loop over the ancestors ends in some number of rounds just if it ends in those given. -/
theorem ancestorConflict_returns_iff :
    (∃ found, state.ancestorConflict entityId layerId = some found) ↔
      state.ClimbStops entityId layerId := by
  have finite : {id | id ∈ state.parentMap.entries.map Prod.snd}.Finite := List.finite_toSet _
  have inside : ∀ child parent, state.parentMap.get child = some parent →
      parent ∈ {id | id ∈ state.parentMap.entries.map Prod.snd} := by
    intro child parent contained
    exact List.mem_map.mpr ⟨_, OrderedMap.get_eq_some.mp contained, rfl⟩
  have ends := climb_ends_iff entityId (state.parentConflict entityId layerId) finite inside
  have conflicting (ancestor : String) :
      state.parentConflict entityId layerId ancestor ≠ none ↔
        ∃ assignment ∈ state.instanceAssignments.get ancestor,
          assignment.inheritsChildren = true ∧ assignment.layerId ≠ layerId := by
    rw [Ne, parentConflict_eq_none]
    simp only [not_forall, exists_prop]
  simp only [conflicting] at ends
  refine Iff.trans ?_ ends
  constructor
  · intro ⟨found, returned⟩
    exact ⟨_, found, returned⟩
  · intro ⟨rounds, found, returned⟩
    exact ⟨found, ancestorConflict_of_climb returned⟩

/-- A child of something that the search visits is a proper descendant, and every one is that. -/
theorem exists_visited_iff :
    (∃ current ∈ state.visits [entityId], other ∈ state.children current) ↔
      Relation.TransGen state.Contained other entityId := by
  have visited (current : String) : current ∈ state.visits [entityId] ↔
      Relation.ReflTransGen state.Contained current entityId := by
    have downwards : (fun via node => node ∈ successors state.containments via) =
        Function.swap state.Contained := by
      ext via node
      exact mem_children
    have reached : current ∈ state.visits [entityId] ↔ ∃ root ∈ [entityId],
        Relation.ReflTransGen (fun via node => node ∈ successors state.containments via) root
          current := mem_traverse_iff
    rw [reached, downwards]
    simp only [List.mem_singleton, exists_eq_left]
    exact Relation.reflTransGen_swap
  simp only [visited, mem_children]
  rw [Relation.TransGen.head'_iff]
  exact exists_congr fun _ => and_comm

theorem descendantConflict_eq_none :
    state.descendantConflict entityId layerId = none ↔
      ∀ descendant, Relation.TransGen state.Contained descendant entityId →
        ∀ assignment ∈ state.instanceAssignments.get descendant,
          assignment.layerId = layerId := by
  rw [descendantConflict, List.findSome?_eq_none_iff]
  simp only [List.findSome?_eq_none_iff, Option.map_eq_none_iff, assignedElsewhere_eq_none]
  constructor
  · intro clear descendant path
    obtain ⟨current, visited, child⟩ := exists_visited_iff.mpr path
    exact clear current visited descendant child
  · intro clear current visited child member
    exact clear child (exists_visited_iff.mp ⟨current, visited, member⟩)

theorem ancestorConflict_eq_none_iff {found : Option AssignmentConflict}
    (returned : state.ancestorConflict entityId layerId = some found) :
    found = none ↔ ∀ ancestor, Relation.TransGen state.Contained entityId ancestor →
      ∀ assignment ∈ state.instanceAssignments.get ancestor, assignment.inheritsChildren = true →
        assignment.layerId = layerId := by
  cases found with
  | none =>
      refine iff_of_true rfl ?_
      intro ancestor path
      exact parentConflict_eq_none.mp ((climb_clear returned).1 ancestor path)
  | some conflict =>
      refine iff_of_false nofun ?_
      intro clear
      obtain ⟨ancestor, path, met⟩ := climb_found returned
      rw [parentConflict_eq_none.mpr (clear ancestor path)] at met
      cases met

theorem checkAssignmentConflict_eq_none_iff {found : Option AssignmentConflict}
    (returned : state.checkAssignmentConflict entityId layerId = some found) :
    found = none ↔ state.FreeOfConflicts entityId layerId := by
  obtain ⟨above, ended, rfl⟩ := Option.map_eq_some_iff.mp returned
  rw [Option.or_eq_none_iff, ancestorConflict_eq_none_iff ended, descendantConflict_eq_none]
  rfl

/-- An assignment returns when its check does. -/
theorem assignEntityToLayer_returns {found : Option AssignmentConflict}
    (returned : state.checkAssignmentConflict entityId layerId = some found)
    (logicalNodeId : Option String) (inheritsChildren : Bool) :
    ∃ result,
      state.assignEntityToLayer entityId layerId logicalNodeId inheritsChildren = some result := by
  have reported : ∃ conflict, state.reportedConflict entityId layerId = some conflict := by
    unfold reportedConflict
    split
    · exact ⟨_, rfl⟩
    · exact ⟨found, returned⟩
  obtain ⟨conflict, reported⟩ := reported
  unfold assignEntityToLayer
  split
  · exact ⟨_, rfl⟩
  · exact ⟨_, by rw [reported, Option.map_some]⟩

/-- The check upwards has no set of what it has visited, so it needs ancestors that end. -/
theorem checksConflicts_iff (state : ReferenceModelState Config) (entityId layerId : String) :
    state.ChecksConflicts entityId layerId ↔ state.ClimbStops entityId layerId := by
  rw [← ancestorConflict_returns_iff]
  constructor
  · intro checks
    obtain ⟨found, returned, _⟩ := checks.verdict
    obtain ⟨above, ended, _⟩ := Option.map_eq_some_iff.mp returned
    exact ⟨above, ended⟩
  · intro ⟨above, ended⟩
    have returned : state.checkAssignmentConflict entityId layerId =
        some (above.or (state.descendantConflict entityId layerId)) := by
      rw [checkAssignmentConflict, ended, Option.map_some]
    exact ⟨assignEntityToLayer_returns returned, _, returned,
      checkAssignmentConflict_eq_none_iff returned⟩

/-- Two entities that contain each other, without any assignment. -/
theorem mutualParents_not_checked :
    ¬ ({ initial with parentMap := (OrderedMap.empty.set "a" "b").set "b" "a" } :
        ReferenceModelState Unit).ChecksConflicts "a" "layer_1" := by
  intro checks
  obtain ⟨found, returned, _⟩ := checks.verdict
  exact absurd returned nofun

end ReferenceModelState

end Univiz.Reference
