import Mathlib.Data.List.DropRight
import Univiz.Data.Grafts
import Univiz.LayerTrees.Layers

namespace Univiz.LayerTrees

open Univiz.Data

/-! `useLogicalNodes`: moving a logical group of a layer below another, or to the top. -/

def maxUndoStack : Nat := 20

/-- What the hook works on, with its snapshots. -/
structure LogicalNodes where
  layers : List ViewLayerConfig
  undoStack : List (List ViewLayerConfig)
  redoStack : List (List ViewLayerConfig)

def LogicalNodes.commitUpdate (hook : LogicalNodes) (next : List ViewLayerConfig) :
    LogicalNodes where
  layers := next
  undoStack := hook.undoStack.rtake (maxUndoStack - 1) ++ [hook.layers]
  redoStack := []

def removeNode (nodes : List LogicalNodeConfig) (id : String) :
    Option LogicalNodeConfig × List LogicalNodeConfig :=
  Rose.take LogicalNode.id id nodes

/-- At the top without a parent, and an empty one is none. -/
def insertNode (nodes : List LogicalNodeConfig) (node : LogicalNodeConfig)
    (parentId : Option String) : List LogicalNodeConfig :=
  match truthy parentId with
  | none => nodes ++ [node]
  | some parentId => Rose.hang LogicalNode.id node parentId nodes

def ViewLayerConfig.moved (layer : ViewLayerConfig) (nodeId : String)
    (newParentId : Option String) : ViewLayerConfig :=
  match removeNode layer.logicalNodes nodeId with
  | (none, _) => layer
  | (some removed, pruned) =>
      { layer with logicalNodes := insertNode pruned removed newParentId }

def LogicalNodes.moveNode (hook : LogicalNodes) (layerId nodeId : String)
    (newParentId : Option String) : LogicalNodes :=
  hook.commitUpdate <| hook.layers.map fun layer =>
    if layer.id = layerId then layer.moved nodeId newParentId else layer

theorem insertNode_empty (nodes : List LogicalNodeConfig) (node : LogicalNodeConfig) :
    insertNode nodes node (some "") = nodes ++ [node] := by
  have none' : truthy (some "") = none := by decide
  rw [insertNode, none']

theorem insertNode_below {parentId : String} (named : parentId ≠ "")
    (nodes : List LogicalNodeConfig) (node : LogicalNodeConfig) :
    insertNode nodes node (some parentId) = Rose.hang LogicalNode.id node parentId nodes := by
  have some' : truthy (some parentId) = some parentId :=
    Option.filter_eq_some_iff.mpr ⟨rfl, decide_eq_true named⟩
  rw [insertNode, some']

def groupIds (nodes : List LogicalNodeConfig) : List String := Rose.keys LogicalNode.id nodes

/-- A move of a group of a layer, in which no two groups have one id, to the top or to a group of
the layer. -/
structure Move where
  hook : LogicalNodes
  place : Nat
  layer : ViewLayerConfig
  nodeId : String
  newParentId : Option String
  here : hook.layers[place]? = some layer
  distinct : (groupIds layer.logicalNodes).Nodup
  inside : nodeId ∈ groupIds layer.logicalNodes
  target : ∀ parentId ∈ newParentId, parentId ∈ groupIds layer.logicalNodes

namespace Move

variable (move : Move)

def after : LogicalNodes := move.hook.moveNode move.layer.id move.nodeId move.newParentId

/-- The new parent is the group itself, or below it. -/
def Impossible : Prop :=
  ∃ parentId ∈ move.newParentId, ∃ node ∈ Rose.nodesAll move.layer.logicalNodes,
    node.label.id = move.nodeId ∧ parentId ∈ groupIds [node]

/-- The same groups are there, each once, and the moved one is below its new parent; a move that
is impossible changes nothing. -/
def Keeps : Prop :=
  ∃ layer, move.after.layers[move.place]? = some layer ∧
    (move.Impossible → layer = move.layer) ∧
    (¬ move.Impossible →
      (∀ id, id ∈ groupIds layer.logicalNodes ↔ id ∈ groupIds move.layer.logicalNodes) ∧
      (groupIds layer.logicalNodes).Nodup ∧
      Rose.HasParent LogicalNode.id layer.logicalNodes move.nodeId move.newParentId)

/-- A move to the top, or to a group outside of the moved one that has an id; to a group without
one, that is inside of it, only from the end of the top. -/
def Safe : Prop :=
  move.newParentId = none ∨
  (∃ parentId ∈ move.newParentId, parentId ≠ "") ∧ ¬ move.Impossible ∨
  move.newParentId = some "" ∧ move.Impossible ∧
    ∃ last ∈ move.layer.logicalNodes.getLast?, last.label.id = move.nodeId

variable {move}

theorem layer_after : move.after.layers[move.place]? =
    some (move.layer.moved move.nodeId move.newParentId) := by
  simp only [after, LogicalNodes.moveNode, LogicalNodes.commitUpdate, List.getElem?_map, move.here,
    Option.map_some, if_pos]

/-- What the removal leaves. -/
theorem exists_taken (move : Move) : ∃ branch kept,
    removeNode move.layer.logicalNodes move.nodeId = (some branch, kept) ∧
      Rose.Takes LogicalNode.id move.nodeId move.layer.logicalNodes branch kept :=
  Rose.takes_take _ move.distinct move.inside

section Taken

variable {branch : LogicalNodeConfig} {kept : List LogicalNodeConfig}

theorem impossible_iff
    (takes : Rose.Takes LogicalNode.id move.nodeId move.layer.logicalNodes branch kept) :
    move.Impossible ↔ ∃ parentId ∈ move.newParentId, parentId ∈ groupIds [branch] := by
  refine exists_congr fun parentId => and_congr_right fun _ => ?_
  constructor
  · rintro ⟨node, member, named, below⟩
    have same : node = branch := List.inj_on_of_nodup_map move.distinct member takes.member
      (named.trans takes.named.symm)
    exact same ▸ below
  · intro below
    exact ⟨branch, takes.member, takes.named, below⟩

theorem apart
    (takes : Rose.Takes LogicalNode.id move.nodeId move.layer.logicalNodes branch kept) :
    (groupIds kept).Nodup ∧ ∀ id ∈ groupIds [branch], id ∉ groupIds kept := by
  obtain ⟨_, distinct, apart⟩ := List.nodup_append.mp (takes.perm.nodup_iff.mp move.distinct)
  exact ⟨distinct, fun id member member' => apart id member id member' rfl⟩

theorem named_mem
    (takes : Rose.Takes LogicalNode.id move.nodeId move.layer.logicalNodes branch kept) :
    move.nodeId ∈ groupIds [branch] := by
  rw [← takes.named]
  exact List.mem_map_of_mem (Rose.mem_nodesAll_of_mem (List.mem_singleton_self branch))

theorem moved_eq
    (removed : removeNode move.layer.logicalNodes move.nodeId = (some branch, kept)) :
    move.layer.moved move.nodeId move.newParentId =
      { move.layer with logicalNodes := insertNode kept branch move.newParentId } := by
  rw [ViewLayerConfig.moved, removed]

/-- A new list of groups with the same ids. -/
theorem keeps_of_perm {nodes : List LogicalNodeConfig}
    (removed : removeNode move.layer.logicalNodes move.nodeId = (some branch, kept))
    (inserted : insertNode kept branch move.newParentId = nodes)
    (perm : (groupIds nodes).Perm (groupIds move.layer.logicalNodes))
    (possible : ¬ move.Impossible)
    (parent : Rose.HasParent LogicalNode.id nodes move.nodeId move.newParentId) : move.Keeps := by
  refine ⟨_, layer_after, fun impossible => absurd impossible possible, fun _ => ?_⟩
  rw [moved_eq removed, inserted]
  exact ⟨fun _ => perm.mem_iff, perm.nodup_iff.mpr move.distinct, parent⟩

theorem appended_perm
    (takes : Rose.Takes LogicalNode.id move.nodeId move.layer.logicalNodes branch kept) :
    (groupIds (kept ++ [branch])).Perm (groupIds move.layer.logicalNodes) := by
  rw [groupIds, Rose.keys_append]
  exact List.perm_append_comm.trans takes.perm.symm

end Taken

theorem keeps_top (top : move.newParentId = none) : move.Keeps := by
  obtain ⟨branch, kept, removed, takes⟩ := move.exists_taken
  have inserted : insertNode kept branch move.newParentId = kept ++ [branch] := by
    rw [top]
    rfl
  refine keeps_of_perm removed inserted (appended_perm takes) ?_ ?_
  · rintro ⟨parentId, given, _⟩
    rw [top] at given
    cases given
  · rw [top]
    exact ⟨branch, List.mem_append_right _ (List.mem_singleton_self _), takes.named⟩

theorem keeps_outside {parentId : String} (given : move.newParentId = some parentId)
    (named : parentId ≠ "") (possible : ¬ move.Impossible) : move.Keeps := by
  obtain ⟨branch, kept, removed, takes⟩ := move.exists_taken
  have inserted : insertNode kept branch move.newParentId =
      Rose.hang LogicalNode.id branch parentId kept := by
    rw [given, insertNode_below named]
  have member : parentId ∈ groupIds kept := by
    rcases List.mem_append.mp (takes.perm.mem_iff.mp (move.target parentId given)) with below | kept
    · exact absurd ((impossible_iff takes).mpr ⟨parentId, given, below⟩) possible
    · exact kept
  have hangs : Rose.Hangs LogicalNode.id branch parentId kept
      (Rose.hang LogicalNode.id branch parentId kept) := Rose.hangs_hang kept (apart takes).1 member
  refine keeps_of_perm removed inserted (hangs.perm.trans takes.perm.symm) possible ?_
  obtain ⟨node, inside, named, below⟩ := hangs.below
  rw [given]
  exact ⟨node, inside, named, branch, below, takes.named⟩

/-- Where an empty parent is below the moved group, it goes back to where it was. -/
theorem keeps_last {last : LogicalNodeConfig} (given : move.newParentId = some "")
    (impossible : move.Impossible) (isLast : move.layer.logicalNodes.getLast? = some last)
    (named : last.label.id = move.nodeId) : move.Keeps := by
  obtain ⟨branch, kept, removed, takes⟩ := move.exists_taken
  refine ⟨_, layer_after, fun _ => ?_, fun possible => absurd impossible possible⟩
  obtain ⟨init, whole⟩ := List.getLast?_eq_some_iff.mp isLast
  have distinct := move.distinct
  rw [whole, groupIds, Rose.keys_append] at distinct
  obtain ⟨_, _, apart⟩ := List.nodup_append.mp distinct
  have isKey : move.nodeId ∈ Rose.keys LogicalNode.id [last] := by
    rw [← named]
    exact List.mem_map_of_mem (Rose.mem_nodesAll_of_mem (List.mem_singleton_self last))
  have absent : move.nodeId ∉ Rose.keys LogicalNode.id init :=
    fun member => apart _ member _ isKey rfl
  have same := removed
  rw [whole, removeNode, Rose.take_concat absent named] at same
  cases same
  rw [moved_eq removed, given, insertNode_empty, ← whole]

/-- Below itself the moved group is lost, as its new parent is gone when it is to be inserted. -/
theorem not_keeps_below {parentId : String} (given : move.newParentId = some parentId)
    (named : parentId ≠ "") (impossible : move.Impossible) : ¬ move.Keeps := by
  rintro ⟨layer, isAfter, unchanged, _⟩
  obtain ⟨branch, kept, removed, takes⟩ := move.exists_taken
  obtain ⟨_, apart⟩ := apart takes
  obtain ⟨_, given', below⟩ := (impossible_iff takes).mp impossible
  cases given.symm.trans given'
  rw [layer_after, moved_eq removed, given, insertNode_below named,
    Rose.hang_of_notMem kept (apart parentId below)] at isAfter
  cases isAfter
  have same : kept = move.layer.logicalNodes :=
    congrArg ViewLayerConfig.logicalNodes (unchanged impossible)
  have lost := apart move.nodeId (named_mem takes)
  rw [same] at lost
  exact lost move.inside

theorem not_keeps_empty (given : move.newParentId = some "")
    (elsewhere : ¬ (move.Impossible ∧
      ∃ last ∈ move.layer.logicalNodes.getLast?, last.label.id = move.nodeId)) : ¬ move.Keeps := by
  rintro ⟨layer, isAfter, unchanged, moves⟩
  obtain ⟨branch, kept, removed, takes⟩ := move.exists_taken
  rw [layer_after, moved_eq removed, given, insertNode_empty] at isAfter
  cases isAfter
  by_cases impossible : move.Impossible
  · have same : kept ++ [branch] = move.layer.logicalNodes :=
      congrArg ViewLayerConfig.logicalNodes (unchanged impossible)
    refine elsewhere ⟨impossible, branch, ?_, takes.named⟩
    rw [← same]
    exact List.getLast?_concat
  · obtain ⟨_, distinct, parent⟩ := moves impossible
    rw [given] at parent
    have isRoot : Rose.HasParent LogicalNode.id (kept ++ [branch]) move.nodeId none :=
      ⟨branch, List.mem_append_right _ (List.mem_singleton_self _), takes.named⟩
    exact Rose.no_parent_of_root distinct isRoot parent

/-- A move does what it should just if it is safe. -/
theorem keeps_iff_safe (move : Move) : move.Keeps ↔ move.Safe := by
  cases given : move.newParentId with
  | none => exact iff_of_true (keeps_top given) (.inl given)
  | some parentId =>
      simp only [Safe, given, Option.some_ne_none, false_or, Option.mem_some_iff, exists_eq_left',
        Option.some.injEq]
      by_cases empty : parentId = ""
      · subst empty
        simp only [ne_eq, not_true_eq_false, false_and, false_or, true_and]
        constructor
        · intro keeps
          by_contra elsewhere
          exact not_keeps_empty given elsewhere keeps
        · rintro ⟨impossible, last, isLast, named⟩
          exact keeps_last given impossible isLast named
      · simp only [ne_eq, empty, not_false_eq_true, true_and, false_and, or_false]
        constructor
        · intro keeps impossible
          exact not_keeps_below given empty impossible keeps
        · exact keeps_outside given empty

end Move

/-- The only group of a layer. -/
def onlyGroup : ViewLayerConfig where
  id := "layer"
  order := 0
  logicalNodes := [.node ⟨"a", "A", .group⟩ []]

def intoItself : Move where
  hook := ⟨[onlyGroup], [], []⟩
  place := 0
  layer := onlyGroup
  nodeId := "a"
  newParentId := some "a"
  here := rfl
  distinct := by decide
  inside := by decide
  target := by decide

/-- A group that is moved below itself is lost. -/
theorem intoItself_lost : ¬ intoItself.Keeps := by
  rintro ⟨layer, isAfter, unchanged, _⟩
  have same : layer = onlyGroup := unchanged
    ⟨"a", rfl, .node ⟨"a", "A", .group⟩ [], List.mem_cons_self, rfl, List.mem_cons_self⟩
  have lost : intoItself.after.layers[intoItself.place]?.map (fun layer => layer.logicalNodes.length) =
      some 0 := by decide
  rw [isAfter, same] at lost
  revert lost
  decide

end Univiz.LayerTrees
