import Univiz.LayerTrees.Trees

namespace Univiz.LayerTrees

open Univiz.Data

/-! The logical groups of a layer keep the trees that they are given: the nodes of the layer are
those of the trees and one for each group in which there is something. -/

section Wrappers

variable {runtime : Runtime} {logicalChildren : OrderedMap String (List HierarchyNode)}

/-- A group in or below which there is something. -/
def Used (logicalChildren : OrderedMap String (List HierarchyNode)) (config : LogicalNodeConfig) :
    Prop :=
  ∃ below ∈ Rose.nodes config, filed logicalChildren below.label.id ≠ []

instance (config : LogicalNodeConfig) : Decidable (Used logicalChildren config) :=
  inferInstanceAs (Decidable (∃ below ∈ _, _))

mutual

theorem logicalGroup_kept
    (filled : ∀ key, logicalChildren.get key ≠ none ↔ filed logicalChildren key ≠ [])
    (depth : Nat) (config : LogicalNodeConfig) :
    ((logicalGroup runtime logicalChildren depth config).children ≠ [] ∨
      logicalChildren.get config.label.id ≠ none) ↔ Used logicalChildren config := by
  cases config with
  | node config groups =>
      have below := buildLogicalHierarchy_ne_nil filled (depth + 1) groups
      rw [filled, logicalGroup, Rose.children, Used, Rose.nodes, List.exists_mem_cons_iff]
      rw [Rose.label, ne_eq, ← List.length_eq_zero_iff, (sortByName_perm _).length_eq,
        List.length_eq_zero_iff, List.append_eq_nil_iff, not_and_or, ← ne_eq, ← ne_eq, below]
      constructor
      · rintro ((⟨config, member, other, inside, something⟩ | something) | something)
        · exact .inr ⟨other, Rose.mem_nodesAll.mpr ⟨config, member, inside⟩, something⟩
        · exact .inl something
        · exact .inl something
      · rintro (something | ⟨other, member, something⟩)
        · exact .inr something
        · obtain ⟨config, member, inside⟩ := Rose.mem_nodesAll.mp member
          exact .inl (.inl ⟨config, member, other, inside, something⟩)

theorem buildLogicalHierarchy_ne_nil
    (filled : ∀ key, logicalChildren.get key ≠ none ↔ filed logicalChildren key ≠ [])
    (depth : Nat) (configs : List LogicalNodeConfig) :
    buildLogicalHierarchy runtime logicalChildren depth configs ≠ [] ↔
      ∃ config ∈ configs, Used logicalChildren config := by
  cases configs with
  | nil => simp [buildLogicalHierarchy]
  | cons config configs =>
      have here := logicalGroup_kept filled depth config
      have later := buildLogicalHierarchy_ne_nil filled depth configs
      rw [buildLogicalHierarchy, List.exists_mem_cons_iff, ← here, ← later]
      split
      · rename_i kept
        simp [kept]
      · rename_i dropped
        simp [dropped]

end

/-- The nodes of some trees are wrappers, for some groups each, and the nodes of other trees. -/
def Wraps (nodes : List HierarchyNode) (configs : List LogicalNodeConfig)
    (inside : List HierarchyNode) : Prop :=
  ∃ wrappers : List HierarchyNode, nodes.Perm (wrappers ++ inside) ∧
    (wrappers.map fun wrapper => wrapper.label.id) =
      (configs.map fun config => groupId config.label.id) ∧
    ∀ wrapper ∈ wrappers, wrapper.label.isLogical = true

theorem nothing_of_not_used {config : LogicalNodeConfig} (unused : ¬ Used logicalChildren config) :
    ((Rose.nodes config).filter fun config => Used logicalChildren config) = [] ∧
      ((Rose.nodes config).flatMap fun config =>
        Rose.nodesAll (filed logicalChildren config.label.id)) = [] := by
  simp only [Used, not_exists, not_and, not_not] at unused
  constructor
  · rw [List.filter_eq_nil_iff]
    intro below member used
    obtain ⟨other, inside, something⟩ := of_decide_eq_true used
    exact something (unused other (Rose.mem_nodes_trans config member inside))
  · rw [List.flatMap_eq_nil_iff]
    intro below member
    rw [unused below member, Rose.nodesAll]

mutual

theorem logicalGroup_wraps
    (filled : ∀ key, logicalChildren.get key ≠ none ↔ filed logicalChildren key ≠ [])
    (depth : Nat) (config : LogicalNodeConfig) (used : Used logicalChildren config) :
    Wraps (Rose.nodes (logicalGroup runtime logicalChildren depth config))
      ((Rose.nodes config).filter fun config => Used logicalChildren config)
      ((Rose.nodes config).flatMap fun config =>
        Rose.nodesAll (filed logicalChildren config.label.id)) := by
  cases config with
  | node config groups =>
      obtain ⟨wrappers, perm, ids, logical⟩ :=
        buildLogicalHierarchy_wraps filled (depth + 1) groups
      rw [Rose.nodes, List.filter_cons_of_pos (by simpa using used), List.flatMap_cons,
        logicalGroup, Rose.nodes]
      refine ⟨.node (config.fields depth) _ :: wrappers, .cons _ ?_, ?_, ?_⟩
      · refine (Rose.nodesAll_perm (sortByName_perm _)).trans ?_
        rw [Rose.nodesAll_append, Rose.label]
        refine (perm.append_right _).trans ?_
        rw [List.append_assoc]
        exact List.perm_append_comm.append_left _
      · rw [List.map_cons, List.map_cons, ids]
        rfl
      · exact List.forall_mem_cons.mpr ⟨rfl, logical⟩

theorem buildLogicalHierarchy_wraps
    (filled : ∀ key, logicalChildren.get key ≠ none ↔ filed logicalChildren key ≠ [])
    (depth : Nat) (configs : List LogicalNodeConfig) :
    Wraps (Rose.nodesAll (buildLogicalHierarchy runtime logicalChildren depth configs))
      ((Rose.nodesAll configs).filter fun config => Used logicalChildren config)
      ((Rose.nodesAll configs).flatMap fun config =>
        Rose.nodesAll (filed logicalChildren config.label.id)) := by
  cases configs with
  | nil => exact ⟨[], .refl _, rfl, nofun⟩
  | cons config configs =>
      obtain ⟨others, perm', ids', logical'⟩ :=
        buildLogicalHierarchy_wraps filled depth configs
      have kept : ((logicalGroup runtime logicalChildren depth config).children ≠ [] ∨
          logicalChildren.get config.label.id ≠ none) ↔ Used logicalChildren config :=
        logicalGroup_kept filled depth config
      rw [Rose.nodesAll, List.filter_append, List.flatMap_append, buildLogicalHierarchy]
      split
      · rename_i keeps
        obtain ⟨wrappers, perm, ids, logical⟩ := logicalGroup_wraps filled depth config (kept.mp keeps)
        refine ⟨wrappers ++ others, ?_, ?_, ?_⟩
        · rw [Rose.nodesAll, List.append_assoc]
          refine (perm.append perm').trans ?_
          rw [List.append_assoc]
          exact (List.perm_append_comm_assoc _ _ _).append_left _
        · rw [List.map_append, List.map_append, ids, ids']
        · exact List.forall_mem_append.mpr ⟨logical, logical'⟩
      · rename_i drops
        obtain ⟨noGroups, nothing⟩ := nothing_of_not_used (mt kept.mpr drops)
        rw [noGroups, nothing]
        exact ⟨others, perm', ids', logical'⟩

end

end Wrappers

namespace Options

variable {options : Options} {runtime : Runtime} {layer : ViewLayerConfig}
  {forest : List HierarchyNode} {parted : Partition} {logicalId : String}

def inGroup (options : Options) (layer : ViewLayerConfig) (forest : List HierarchyNode)
    (group : Option String) : List HierarchyNode :=
  forest.filter fun tree => options.groupOf layer tree.label.id = group

theorem ungrouped_partition :
    (forest.foldl (options.partition layer) parted).ungrouped =
      parted.ungrouped ++ options.inGroup layer forest none := by
  induction forest generalizing parted with
  | nil => exact (List.append_nil _).symm
  | cons tree rest ih =>
      rw [List.foldl_cons, ih, partition, inGroup, inGroup, List.filter_cons]
      cases group : options.groupOf layer tree.label.id with
      | none => simp
      | some logicalId => simp

theorem filed_partition :
    filed (forest.foldl (options.partition layer) parted).logicalChildren logicalId =
      filed parted.logicalChildren logicalId ++ options.inGroup layer forest (some logicalId) := by
  induction forest generalizing parted with
  | nil => exact (List.append_nil _).symm
  | cons tree rest ih =>
      rw [List.foldl_cons, ih, partition, inGroup, inGroup, List.filter_cons]
      cases group : options.groupOf layer tree.label.id with
      | none => simp
      | some other =>
          simp only [filed, file, OrderedMap.get_set]
          by_cases here : other = logicalId
          · simp [here]
          · simp [here]

theorem get_partition (filled : ∀ key, parted.logicalChildren.get key ≠ none ↔
      filed parted.logicalChildren key ≠ []) (key : String) :
    (forest.foldl (options.partition layer) parted).logicalChildren.get key ≠ none ↔
      filed (forest.foldl (options.partition layer) parted).logicalChildren key ≠ [] := by
  induction forest generalizing parted with
  | nil => exact filled key
  | cons tree rest ih =>
      rw [List.foldl_cons]
      refine ih fun key => ?_
      rw [partition]
      split
      · rename_i other _
        rw [filed, file, OrderedMap.get_set]
        by_cases here : other = key
        · simp [here]
        · simpa [here, filed] using filled key
      · exact filled key

/-- The groups of a layer that are used for some roots. -/
def usedGroups (options : Options) (layer : ViewLayerConfig) (roots : List String) :
    List LogicalNodeConfig :=
  (Rose.nodesAll layer.logicalNodes).filter fun config =>
    ∃ below ∈ Rose.nodes config, ∃ nodeId ∈ roots,
      options.groupOf layer nodeId = some below.label.id

/-- The nodes of the trees that are in some group, for each place where the group is. -/
def nodesInGroups (options : Options) (layer : ViewLayerConfig) (forest : List HierarchyNode) :
    List HierarchyNode :=
  (Rose.nodesAll layer.logicalNodes).flatMap fun config =>
    Rose.nodesAll (options.inGroup layer forest (some config.label.id))

theorem ne_nil_inGroup {group : Option String} : options.inGroup layer forest group ≠ [] ↔
    ∃ nodeId ∈ forest.map (fun tree => tree.label.id), options.groupOf layer nodeId = group := by
  simp [inGroup, List.filter_eq_nil_iff]

theorem wraps_of_ungrouped
    (ungrouped : ∀ tree ∈ forest, options.groupOf layer tree.label.id = none) :
    Wraps (Rose.nodesAll forest)
      (options.usedGroups layer (forest.map fun tree => tree.label.id))
      (options.nodesInGroups layer forest ++ Rose.nodesAll (options.inGroup layer forest none)) := by
  have all : options.inGroup layer forest none = forest :=
    List.filter_eq_self.mpr fun tree member => by simpa using ungrouped tree member
  have others (logicalId : String) : options.inGroup layer forest (some logicalId) = [] :=
    List.filter_eq_nil_iff.mpr fun tree member => by simp [ungrouped tree member]
  have unused : options.usedGroups layer (forest.map fun tree => tree.label.id) = [] := by
    refine List.filter_eq_nil_iff.mpr fun config _ used => ?_
    obtain ⟨below, _, something⟩ := of_decide_eq_true used
    exact ne_nil_inGroup.mpr something (others below.label.id)
  have nothing : options.nodesInGroups layer forest = [] := by
    refine List.flatMap_eq_nil_iff.mpr fun config _ => ?_
    rw [others, Rose.nodesAll]
  rw [all, unused, nothing]
  exact ⟨[], .refl _, rfl, nofun⟩

theorem groupOf_eq_none_of_size (empty : (forest.foldl (options.partition layer)
    ⟨.empty, []⟩).logicalChildren.size = 0) (tree : HierarchyNode) (member : tree ∈ forest) :
    options.groupOf layer tree.label.id = none := by
  cases group : options.groupOf layer tree.label.id with
  | none => rfl
  | some logicalId =>
      have something : options.inGroup layer forest (some logicalId) ≠ [] :=
        ne_nil_inGroup.mpr ⟨_, List.mem_map.mpr ⟨tree, member, rfl⟩, group⟩
      have nothing := OrderedMap.size_eq_zero.mp empty logicalId
      have filed : filed (forest.foldl (options.partition layer)
          ⟨.empty, []⟩).logicalChildren logicalId = [] := by
        rw [Data.filed, nothing]
        rfl
      rw [filed_partition] at filed
      exact absurd (List.append_eq_nil_iff.mp filed).2 something

theorem groupNodes_of_ungrouped
    (ungrouped : ∀ tree ∈ forest, options.groupOf layer tree.label.id = none) :
    options.groupNodes runtime layer forest = forest := by
  rw [groupNodes]
  split
  · rfl
  · refine if_pos (OrderedMap.size_eq_zero.mpr fun key => ?_)
    by_contra something
    rw [← ne_eq, get_partition (fun key => by simp [filed]), filed_partition] at something
    obtain ⟨nodeId, isRoot, group⟩ := ne_nil_inGroup.mp something
    obtain ⟨tree, member, rfl⟩ := List.mem_map.mp isRoot
    rw [ungrouped tree member] at group
    cases group

theorem groupNodes_wraps (options : Options) (runtime : Runtime) (layer : ViewLayerConfig)
    (forest : List HierarchyNode) :
    Wraps (Rose.nodesAll (options.groupNodes runtime layer forest))
      (options.usedGroups layer (forest.map fun tree => tree.label.id))
      (options.nodesInGroups layer forest ++ Rose.nodesAll (options.inGroup layer forest none)) := by
  rw [groupNodes]
  split
  · rename_i untouched
    apply wraps_of_ungrouped
    intro tree member
    rcases untouched with noGroups | rfl
    · simp [groupOf, noGroups, Rose.nodesAll]
    · cases member
  · dsimp only
    split
    · rename_i empty
      exact wraps_of_ungrouped (groupOf_eq_none_of_size empty)
    · let start : Partition := ⟨.empty, []⟩
      let parted := forest.foldl (options.partition layer) start
      have filled (key : String) :
          parted.logicalChildren.get key ≠ none ↔ filed parted.logicalChildren key ≠ [] :=
        get_partition (fun key => by simp [start, filed]) key
      have filedIs (logicalId : String) :
          filed parted.logicalChildren logicalId = options.inGroup layer forest (some logicalId) :=
        filed_partition
      have ungroupedIs : parted.ungrouped = options.inGroup layer forest none :=
        ungrouped_partition
      obtain ⟨wrappers, perm, ids, logical⟩ :
          Wraps (Rose.nodesAll (buildLogicalHierarchy runtime parted.logicalChildren 0
              layer.logicalNodes))
            ((Rose.nodesAll layer.logicalNodes).filter fun config =>
              Used parted.logicalChildren config)
            ((Rose.nodesAll layer.logicalNodes).flatMap fun config =>
              Rose.nodesAll (filed parted.logicalChildren config.label.id)) :=
        buildLogicalHierarchy_wraps filled 0 layer.logicalNodes
      refine ⟨wrappers, ?_, ?_, logical⟩
      · rw [Rose.nodesAll_append, ← List.append_assoc]
        refine (perm.append_right _).trans (.of_eq ?_)
        simp only [filedIs]
        rw [← ungroupedIs]
        rfl
      · rw [ids, usedGroups]
        congr 1
        refine List.filter_congr fun config _ => ?_
        simp only [Used, filedIs, ne_nil_inGroup]

theorem exists_group {nodeId : String} (group : options.groupOf layer nodeId = some logicalId) :
    ∃ config ∈ Rose.nodesAll layer.logicalNodes, config.label.id = logicalId := by
  have inside := (Option.filter_eq_some_iff.mp group).2
  simpa using inside

theorem mem_groupNodes {node : HierarchyNode}
    (plain : ∀ node ∈ Rose.nodesAll forest, node.label.isLogical = false) :
    (node ∈ Rose.nodesAll (options.groupNodes runtime layer forest) ∧
      node.label.isLogical = false) ↔ node ∈ Rose.nodesAll forest := by
  obtain ⟨wrappers, perm, -, logical⟩ := groupNodes_wraps options runtime layer forest
  rw [perm.mem_iff]
  simp only [nodesInGroups, List.mem_append, List.mem_flatMap]
  constructor
  · rintro ⟨wrapper | ⟨config, _, member⟩ | member, isPlain⟩
    · rw [logical node wrapper] at isPlain
      cases isPlain
    · obtain ⟨tree, member, inside⟩ := Rose.mem_nodesAll.mp member
      exact Rose.mem_nodesAll.mpr ⟨tree, List.mem_of_mem_filter member, inside⟩
    · obtain ⟨tree, member, inside⟩ := Rose.mem_nodesAll.mp member
      exact Rose.mem_nodesAll.mpr ⟨tree, List.mem_of_mem_filter member, inside⟩
  · intro member
    refine ⟨.inr ?_, plain node member⟩
    obtain ⟨tree, member, inside⟩ := Rose.mem_nodesAll.mp member
    have bucket : tree ∈ options.inGroup layer forest (options.groupOf layer tree.label.id) :=
      List.mem_filter.mpr ⟨member, by simp⟩
    cases group : options.groupOf layer tree.label.id with
    | none => exact .inr (Rose.mem_nodesAll.mpr ⟨tree, group ▸ bucket, inside⟩)
    | some logicalId =>
        obtain ⟨config, listed, rfl⟩ := exists_group group
        exact .inl ⟨config, listed, Rose.mem_nodesAll.mpr ⟨tree, group ▸ bucket, inside⟩⟩

/-- Where each used group has its own id, no tree is in two groups. -/
theorem nodesInGroups_perm
    (distinct : ((options.usedGroups layer (forest.map fun tree => tree.label.id)).map
      fun config => config.label.id).Nodup) :
    (options.nodesInGroups layer forest ++
      Rose.nodesAll (options.inGroup layer forest none)).Perm (Rose.nodesAll forest) := by
  let used := options.usedGroups layer (forest.map fun tree => tree.label.id)
  let usedIds := used.map fun config => config.label.id
  have isUsed : ∀ config ∈ Rose.nodesAll layer.logicalNodes,
      options.inGroup layer forest (some config.label.id) ≠ [] → config ∈ used := by
    intro config listed something
    refine List.mem_filter.mpr ⟨listed, decide_eq_true ⟨config, ?_, ne_nil_inGroup.mp something⟩⟩
    rw [Rose.nodes_eq]
    exact List.mem_cons_self
  have onlyUsed : options.nodesInGroups layer forest = Rose.nodesAll (usedIds.flatMap fun logicalId =>
      options.inGroup layer forest (some logicalId)) := by
    rw [Rose.nodesAll_eq_flatMap, List.flatMap_assoc, List.flatMap_map]
    simp only [← Rose.nodesAll_eq_flatMap]
    refine (flatMap_filter_of_nil fun config listed unused => ?_).symm
    by_contra something
    have filled : options.inGroup layer forest (some config.label.id) ≠ [] := by
      intro nothing
      rw [nothing] at something
      exact something rfl
    have kept := (List.mem_filter.mp (isUsed config listed filled)).2
    rw [unused] at kept
    cases kept
  have buckets := flatMap_filter_perm distinct
    (fun tree : HierarchyNode => options.groupOf layer tree.label.id) forest
  have some_iff : forest.filter (fun tree => ∃ key ∈ usedIds,
      options.groupOf layer tree.label.id = some key) =
        forest.filter fun tree => !decide (options.groupOf layer tree.label.id = none) := by
    refine List.filter_congr fun tree member => ?_
    cases group : options.groupOf layer tree.label.id with
    | none => simp
    | some logicalId =>
        obtain ⟨config, listed, rfl⟩ := exists_group group
        have used : config ∈ used := by
          apply isUsed config listed
          exact ne_nil_inGroup.mpr ⟨_, List.mem_map.mpr ⟨tree, member, rfl⟩, group⟩
        have inside : config.label.id ∈ usedIds := List.mem_map.mpr ⟨config, used, rfl⟩
        simpa using inside
  rw [onlyUsed, ← Rose.nodesAll_append]
  refine Rose.nodesAll_perm ((buckets.append_right _).trans ?_)
  rw [some_iff]
  exact List.perm_append_comm.trans (List.filter_append_perm _ _)

end Options

end Univiz.LayerTrees
