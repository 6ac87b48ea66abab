import Mathlib.Data.List.Perm.Subperm
import Univiz.Hydration.Canvas

namespace Univiz.Hydration

open Univiz.Data

/-! `loadChildren`: the next page of the children of a node, from as many as are loaded. -/

variable {Content : Type}

def pageLimit : Nat := 20

/-- The edges of containment from the parent to nodes of the canvas. -/
def Canvas.currentChildrenCount (canvas : Canvas Content) (types : EdgeTypes) (parentId : String) :
    Nat :=
  (canvas.edges.filter fun edge =>
    edge.source = parentId ∧ edge.target ∈ canvas.nodeIds ∧ types.isContainmentEdge edge).length

def LineageNode.totalChildren (node : LineageNode Content) : Nat :=
  (node.childCount.or node.metadataChildCount).getD 0

def LineageNode.urnOr (node : LineageNode Content) (id : String) : String :=
  (node.urn.filter (· ≠ "")).getD id

/-- A call that does not fail, with nothing else at work on the canvas; the provider is asked with
an urn, a limit and an offset. -/
def Canvas.loadChildren (canvas : Canvas Content) (types : EdgeTypes)
    (getChildrenWithEdges : String → Nat → Nat → ChildrenWithEdges Content) (parentId : String) :
    Canvas Content :=
  match canvas.nodes.find? fun node => node.id = parentId with
  | none => canvas
  | some parentNode =>
      let childCount := parentNode.totalChildren
      let currentChildrenCount := canvas.currentChildrenCount types parentId
      if childCount = 0 then canvas
      else if currentChildrenCount ≥ childCount ∧ childCount > 0 then canvas
      else
        let result := getChildrenWithEdges (parentNode.urnOr parentId) pageLimit currentChildrenCount
        if result.children.length > 0 then
          canvas.add (graphKeys Content) (nodesToAdd canvas.nodeIds result.children)
            result.edgesToAdd
        else canvas

structure Child (Content : Type) where
  node : GraphNode Content
  edge : GraphEdge

/-- A child is on the canvas, and an edge of containment leads to it. -/
def Canvas.Loaded (canvas : Canvas Content) (types : EdgeTypes) (parentId : String)
    (child : Child Content) : Prop :=
  child.node.urn ∈ canvas.nodeIds ∧ ∃ edge ∈ canvas.edges, edge.source = parentId ∧
    edge.target = child.node.urn ∧ types.isContainmentEdge edge = true

/-- Neither the child is on the canvas nor an edge of containment to it. -/
def Canvas.Unloaded (canvas : Canvas Content) (types : EdgeTypes) (parentId : String)
    (child : Child Content) : Prop :=
  child.node.urn ∉ canvas.nodeIds ∧ child.edge.id ∉ canvas.edgeIds ∧
    ∀ edge ∈ canvas.edges, edge.source = parentId → edge.target = child.node.urn →
      types.isContainmentEdge edge = false

/-- A parent on a canvas on which some of its children are loaded, and the provider's answers to
the calls.  What they say of lineage is not of containment. -/
structure Loading (Content : Type) (types : EdgeTypes) where
  parentId : String
  named : parentId ≠ ""
  children : List (Child Content)
  distinct : (children.map fun child => child.node.urn).Nodup
  distinctEdges : (children.map fun child => child.edge.id).Nodup
  joins : ∀ child ∈ children, child.edge.sourceUrn = parentId ∧
    child.edge.targetUrn = child.node.urn ∧ types.isContainmentEdge (toCanvasEdge child.edge) = true
  lineage : Nat → List GraphEdge
  ofLineage : ∀ call, ∀ edge ∈ lineage call, types.isContainmentEdge (toCanvasEdge edge) = false ∧
    ∀ child ∈ children, edge.id ≠ child.edge.id
  canvas : Canvas Content
  exact : canvas.Exact (graphKeys Content)
  parentNode : LineageNode Content
  found : (canvas.nodes.find? fun node => node.id = parentId) = some parentNode
  counted : parentNode.totalChildren = children.length
  someLoaded : ∀ child ∈ children,
    canvas.Loaded types parentId child ∨ canvas.Unloaded types parentId child

namespace Loading

variable {types : EdgeTypes} (loading : Loading Content types)

/-- The slice of the children, with their edges. -/
def answer (call : Nat) (_urn : String) (limit offset : Nat) : ChildrenWithEdges Content :=
  let slice := (loading.children.drop offset).take limit
  ⟨slice.map Child.node, slice.map Child.edge, loading.lineage call⟩

/-- The canvas after some calls. -/
def run : Nat → Canvas Content
  | 0 => loading.canvas
  | call + 1 => (run call).loadChildren types (loading.answer call) loading.parentId

/-- All children come to the canvas, and each call brings one while one is missing. -/
def LoadsAll : Prop :=
  (∃ calls, ∀ child ∈ loading.children, child.node.urn ∈ (loading.run calls).nodeIds) ∧
  ∀ calls, (∃ child ∈ loading.children, child.node.urn ∉ (loading.run calls).nodeIds) →
    ∃ child ∈ loading.children, child.node.urn ∉ (loading.run calls).nodeIds ∧
      child.node.urn ∈ (loading.run (calls + 1)).nodeIds

/-- Nothing is missing, or what is loaded are the first children, as many as are counted. -/
def LoadedInOrder : Prop :=
  (∀ child ∈ loading.children, child.node.urn ∈ loading.canvas.nodeIds) ∨
    ∀ index child, loading.children[index]? = some child →
      (child.node.urn ∈ loading.canvas.nodeIds ↔
        index < loading.canvas.currentChildrenCount types loading.parentId)

variable {loading} {canvas : Canvas Content} {call index count : Nat} {child : Child Content}
  {id : String}

/-- What stays of a canvas from call to call. -/
structure Ready (loading : Loading Content types) (canvas : Canvas Content) : Prop where
  exact : canvas.Exact (graphKeys Content)
  found : (canvas.nodes.find? fun node => node.id = loading.parentId) = some loading.parentNode

/-- The children that the next call asks for. -/
def page (loading : Loading Content types) (canvas : Canvas Content) : List (Child Content) :=
  (loading.children.drop (canvas.currentChildrenCount types loading.parentId)).take pageLimit

/-- The canvas with a page. -/
def withPage (loading : Loading Content types) (canvas : Canvas Content) (call : Nat) :
    Canvas Content :=
  canvas.add (graphKeys Content)
    (nodesToAdd canvas.nodeIds ((loading.page canvas).map Child.node))
    (((loading.page canvas).map Child.edge ++ loading.lineage call).map toCanvasEdge)

theorem load_same (ready : loading.Ready canvas)
    (enough : loading.children.length ≤ canvas.currentChildrenCount types loading.parentId) :
    canvas.loadChildren types (loading.answer call) loading.parentId = canvas := by
  rw [Canvas.loadChildren, ready.found]
  dsimp only
  rw [loading.counted]
  split
  · rfl
  · rename_i some'
    rw [if_pos ⟨enough, Nat.pos_of_ne_zero some'⟩]

theorem load_page (ready : loading.Ready canvas)
    (few : canvas.currentChildrenCount types loading.parentId < loading.children.length) :
    canvas.loadChildren types (loading.answer call) loading.parentId =
      loading.withPage canvas call := by
  have some' : loading.children.length ≠ 0 := by omega
  have filled : ((loading.page canvas).map Child.node).length > 0 := by
    rw [List.length_map, page, List.length_take, List.length_drop, pageLimit]
    omega
  rw [Canvas.loadChildren, ready.found]
  dsimp only
  rw [loading.counted, if_neg some', if_neg (fun enough => by omega)]
  exact if_pos filled

theorem mem_nodeIds_withPage (ready : loading.Ready canvas) :
    id ∈ Canvas.nodeIds (loading.withPage canvas call) ↔
      id ∈ canvas.nodeIds ∨ ∃ child ∈ loading.page canvas, child.node.urn = id := by
  have added : id ∈ (nodesToAdd canvas.nodeIds ((loading.page canvas).map Child.node)).map
        LineageNode.id ↔
      (∃ child ∈ loading.page canvas, child.node.urn = id) ∧ id ∉ canvas.nodeIds := by
    rw [mem_nodesToAdd, List.map_map, List.mem_map]
    rfl
  rw [withPage, Canvas.nodeIds, KeyedGraph.mem_nodeKeys_add ready.exact, ← Canvas.nodeIds,
    graphKeys, added]
  tauto

theorem Ready.withPage (ready : loading.Ready canvas) (call : Nat) :
    loading.Ready (loading.withPage canvas call) where
  exact := ready.exact.add _ _
  found := by
    rw [Loading.withPage, KeyedGraph.nodes_add, List.find?_append, ready.found, Option.some_or]

theorem Ready.load (ready : loading.Ready canvas) (call : Nat) :
    loading.Ready (canvas.loadChildren types (loading.answer call) loading.parentId) := by
  by_cases few : canvas.currentChildrenCount types loading.parentId < loading.children.length
  · rw [load_page ready few]
    exact ready.withPage call
  · rw [load_same ready (by omega)]
    exact ready

theorem ready_run (loading : Loading Content types) (calls : Nat) :
    loading.Ready (loading.run calls) := by
  induction calls with
  | zero => exact ⟨loading.exact, loading.found⟩
  | succ calls ih => exact ih.load calls

/-- The first children are loaded, as many as are counted, and the others are not. -/
structure InOrder (loading : Loading Content types) (canvas : Canvas Content) (count : Nat) :
    Prop where
  ready : loading.Ready canvas
  counted : canvas.currentChildrenCount types loading.parentId = count
  first : ∀ index child, loading.children[index]? = some child → index < count →
    child.node.urn ∈ canvas.nodeIds
  later : ∀ index child, loading.children[index]? = some child → count ≤ index →
    canvas.Unloaded types loading.parentId child

theorem mem_page_iff : child ∈ loading.page canvas ↔ ∃ index,
    loading.children[index]? = some child ∧
      canvas.currentChildrenCount types loading.parentId ≤ index ∧
      index < canvas.currentChildrenCount types loading.parentId + pageLimit := by
  rw [page, List.mem_iff_getElem?]
  constructor
  · rintro ⟨place, here⟩
    rw [List.getElem?_take] at here
    split at here
    · rw [List.getElem?_drop] at here
      exact ⟨_, here, Nat.le_add_right _ _, by omega⟩
    · cases here
  · rintro ⟨index, here, low, high⟩
    refine ⟨index - canvas.currentChildrenCount types loading.parentId, ?_⟩
    rw [List.getElem?_take_of_lt (by omega), List.getElem?_drop, Nat.add_sub_cancel' low]
    exact here

/-- The children have one place each. -/
theorem index_unique {other : Nat} {sibling : Child Content}
    (here : loading.children[index]? = some child)
    (there : loading.children[other]? = some sibling) (same : sibling.node.urn = child.node.urn) :
    other = index := by
  have urns (place : Nat) (found : Child Content)
      (isAt : loading.children[place]? = some found) :
      (loading.children.map fun child => child.node.urn)[place]? = some found.node.urn := by
    rw [List.getElem?_map, isAt, Option.map_some]
  have first := urns index child here
  obtain ⟨inside, _⟩ := List.getElem?_eq_some_iff.mp first
  exact ((List.getElem?_inj inside loading.distinct).mp
    (first.trans (same ▸ (urns other sibling there).symm))).symm

theorem mem_page (inOrder : loading.InOrder canvas count) (member : child ∈ loading.page canvas) :
    child ∈ loading.children ∧ canvas.Unloaded types loading.parentId child := by
  obtain ⟨index, here, low, _⟩ := mem_page_iff.mp member
  exact ⟨List.mem_of_getElem? here, inOrder.later index child here (inOrder.counted ▸ low)⟩

theorem edges_withPage : (loading.withPage canvas call).edges = canvas.edges ++
    unindexed LineageEdge.id canvas.edgeIndex
      (((loading.page canvas).map Child.edge ++ loading.lineage call).map toCanvasEdge) :=
  KeyedGraph.edges_add

/-- The page counts in full. -/
theorem count_withPage (inOrder : loading.InOrder canvas count) (call : Nat) :
    Canvas.currentChildrenCount (loading.withPage canvas call) types loading.parentId =
      count + (loading.page canvas).length := by
  let counts (edge : LineageEdge) : Bool :=
    edge.source = loading.parentId ∧
      edge.target ∈ Canvas.nodeIds (loading.withPage canvas call) ∧ types.isContainmentEdge edge
  let pageEdges := ((loading.page canvas).map Child.edge).map toCanvasEdge
  let lineageEdges := (loading.lineage call).map toCanvasEdge
  have old : canvas.edges.filter counts = canvas.edges.filter fun edge =>
      edge.source = loading.parentId ∧ edge.target ∈ canvas.nodeIds ∧
        types.isContainmentEdge edge := by
    refine List.filter_congr fun edge member => ?_
    refine decide_eq_decide.mpr (and_congr_right fun outgoing => and_congr_left fun contains => ?_)
    rw [mem_nodeIds_withPage inOrder.ready]
    refine or_iff_left ?_
    rintro ⟨child, inPage, isTarget⟩
    have apart := (mem_page inOrder inPage).2.2.2 edge member outgoing isTarget.symm
    rw [contains] at apart
    cases apart
  have fresh : unindexed LineageEdge.id canvas.edgeIndex pageEdges = pageEdges := by
    refine List.filter_eq_self.mpr fun edge member => decide_eq_true fun known => ?_
    simp only [pageEdges, List.map_map, List.mem_map] at member
    obtain ⟨child, inPage, rfl⟩ := member
    exact (mem_page inOrder inPage).2.2.1 ((inOrder.ready.exact.edges _).mp known)
  have counted : pageEdges.filter counts = pageEdges := by
    refine List.filter_eq_self.mpr fun edge member => decide_eq_true ?_
    simp only [pageEdges, List.map_map, List.mem_map] at member
    obtain ⟨child, inPage, rfl⟩ := member
    obtain ⟨source, target, contains⟩ := loading.joins child (mem_page inOrder inPage).1
    exact ⟨source, (mem_nodeIds_withPage inOrder.ready).mpr (.inr ⟨child, inPage, target.symm⟩),
      contains⟩
  have uncounted :
      (unindexed LineageEdge.id canvas.edgeIndex lineageEdges).filter counts = [] := by
    refine List.filter_eq_nil_iff.mpr fun edge member counted => ?_
    obtain ⟨lineage, inside, rfl⟩ := List.mem_map.mp (List.mem_filter.mp member).1
    have contains := (of_decide_eq_true counted).2.2
    rw [(loading.ofLineage call lineage inside).1] at contains
    cases contains
  have apart : unindexed LineageEdge.id canvas.edgeIndex (pageEdges ++ lineageEdges) =
      pageEdges ++ unindexed LineageEdge.id canvas.edgeIndex lineageEdges := by
    rw [unindexed, List.filter_append]
    exact congrArg (· ++ _) fresh
  have inOld : (canvas.edges.filter counts).length = count := by
    rw [old]
    exact inOrder.counted
  have whole : Canvas.currentChildrenCount (loading.withPage canvas call) types loading.parentId =
      ((loading.withPage canvas call).edges.filter counts).length := rfl
  rw [whole, edges_withPage, List.map_append, List.filter_append, List.length_append, inOld]
  rw [show unindexed LineageEdge.id canvas.edgeIndex
      (((loading.page canvas).map Child.edge).map toCanvasEdge ++
        (loading.lineage call).map toCanvasEdge) = _ from apart,
    List.filter_append, counted, uncounted, List.append_nil, List.length_map, List.length_map]

theorem length_page (inOrder : loading.InOrder canvas count) :
    (loading.page canvas).length = min pageLimit (loading.children.length - count) := by
  rw [page, inOrder.counted, List.length_take, List.length_drop]

/-- A child that comes after the page is as it was. -/
theorem unloaded_withPage (inOrder : loading.InOrder canvas count) (call : Nat)
    (here : loading.children[index]? = some child) (after : count + pageLimit ≤ index) :
    Canvas.Unloaded (loading.withPage canvas call) types loading.parentId child := by
  obtain ⟨absent, unused, apart⟩ := inOrder.later index child here (by omega)
  have outside (sibling : Child Content) (inPage : sibling ∈ loading.page canvas) :
      sibling.node.urn ≠ child.node.urn := by
    intro same
    obtain ⟨other, there, _, high⟩ := mem_page_iff.mp inPage
    rw [inOrder.counted, index_unique here there same] at high
    omega
  refine ⟨?_, ?_, ?_⟩
  · rw [mem_nodeIds_withPage inOrder.ready]
    rintro (old | ⟨sibling, inPage, same⟩)
    · exact absent old
    · exact outside sibling inPage same
  · rw [Canvas.edgeIds, withPage, KeyedGraph.mem_edgeKeys_add inOrder.ready.exact, List.map_map,
      List.mem_map]
    rintro (old | ⟨edge, added, same⟩)
    · exact unused old
    · rcases List.mem_append.mp added with ofPage | lineage
      · obtain ⟨sibling, inPage, rfl⟩ := List.mem_map.mp ofPage
        have equal : sibling = child := List.inj_on_of_nodup_map loading.distinctEdges
          (mem_page inOrder inPage).1 (List.mem_of_getElem? here) same
        exact outside sibling inPage (congrArg (fun child => child.node.urn) equal)
      · exact (loading.ofLineage call edge lineage).2 child (List.mem_of_getElem? here) same
  · intro edge member outgoing isTarget
    rw [edges_withPage, List.mem_append, KeyedGraph.mem_unindexed, List.mem_map] at member
    rcases member with old | ⟨⟨edge, added, rfl⟩, _⟩
    · exact apart edge old outgoing isTarget
    · rcases List.mem_append.mp added with ofPage | lineage
      · obtain ⟨sibling, inPage, rfl⟩ := List.mem_map.mp ofPage
        have target := (loading.joins sibling (mem_page inOrder inPage).1).2.1
        exact absurd (target.symm.trans isTarget) (outside sibling inPage)
      · exact (loading.ofLineage call edge lineage).1

theorem InOrder.withPage (inOrder : loading.InOrder canvas count) (call : Nat) :
    loading.InOrder (loading.withPage canvas call) (count + (loading.page canvas).length) where
  ready := inOrder.ready.withPage call
  counted := count_withPage inOrder call
  first index child here low := by
    rw [mem_nodeIds_withPage inOrder.ready]
    by_cases old : index < count
    · exact .inl (inOrder.first index child here old)
    · refine .inr ⟨child, mem_page_iff.mpr ⟨index, here, ?_⟩, rfl⟩
      rw [length_page inOrder] at low
      rw [inOrder.counted]
      omega
  later index child here high := by
    obtain ⟨inside, _⟩ := List.getElem?_eq_some_iff.mp here
    refine unloaded_withPage inOrder call here ?_
    rw [length_page inOrder] at high
    omega

/-- Each call counts at least one child more, as long as there are more. -/
theorem exists_inOrder (inOrder : loading.InOrder loading.canvas count) (calls : Nat) :
    ∃ reached, loading.InOrder (loading.run calls) reached ∧
      min calls loading.children.length ≤ reached := by
  induction calls with
  | zero => exact ⟨count, inOrder, by omega⟩
  | succ calls ih =>
      obtain ⟨reached, inOrder, enough⟩ := ih
      rw [run]
      by_cases few : reached < loading.children.length
      · rw [load_page inOrder.ready (inOrder.counted ▸ few)]
        refine ⟨_, inOrder.withPage calls, ?_⟩
        rw [length_page inOrder, pageLimit]
        omega
      · rw [load_same inOrder.ready (by rw [inOrder.counted]; omega)]
        exact ⟨reached, inOrder, by omega⟩

theorem loadsAll_of_inOrder (inOrder : loading.InOrder loading.canvas count) :
    loading.LoadsAll := by
  have all (calls reached : Nat) (inOrder : loading.InOrder (loading.run calls) reached)
      (whole : loading.children.length ≤ reached) (child : Child Content)
      (member : child ∈ loading.children) : child.node.urn ∈ (loading.run calls).nodeIds := by
    obtain ⟨index, here⟩ := List.mem_iff_getElem?.mp member
    obtain ⟨inside, _⟩ := List.getElem?_eq_some_iff.mp here
    exact inOrder.first index child here (by omega)
  constructor
  · obtain ⟨reached, inOrder, enough⟩ := exists_inOrder inOrder loading.children.length
    exact ⟨_, all _ reached inOrder (by omega)⟩
  · rintro calls ⟨missing, member, absent⟩
    obtain ⟨reached, inOrder, _⟩ := exists_inOrder inOrder calls
    have few : reached < loading.children.length := by
      by_contra whole
      exact absent (all calls reached inOrder (by omega) missing member)
    have here := List.getElem?_eq_getElem few
    refine ⟨_, List.mem_of_getElem? here, (inOrder.later _ _ here (Nat.le_refl _)).1, ?_⟩
    rw [run, load_page inOrder.ready (inOrder.counted ▸ few), mem_nodeIds_withPage inOrder.ready]
    refine .inr ⟨_, mem_page_iff.mpr ⟨reached, here, ?_⟩, rfl⟩
    rw [inOrder.counted, pageLimit]
    omega

theorem nodeIds_load (ready : loading.Ready canvas) (call : Nat) (present : id ∈ canvas.nodeIds) :
    id ∈ Canvas.nodeIds
      (canvas.loadChildren types (loading.answer call) loading.parentId) := by
  by_cases few : canvas.currentChildrenCount types loading.parentId < loading.children.length
  · rw [load_page ready few, mem_nodeIds_withPage ready]
    exact .inl present
  · rwa [load_same ready (by omega)]

theorem count_load (ready : loading.Ready canvas) (call : Nat) :
    canvas.currentChildrenCount types loading.parentId ≤
      Canvas.currentChildrenCount
        (canvas.loadChildren types (loading.answer call) loading.parentId) types
        loading.parentId := by
  by_cases few : canvas.currentChildrenCount types loading.parentId < loading.children.length
  · rw [load_page ready few]
    simp only [Canvas.currentChildrenCount, edges_withPage, List.filter_append, List.length_append,
      ← List.countP_eq_length_filter]
    refine Nat.le_add_right_of_le (List.countP_mono_left fun edge _ counted => ?_)
    obtain ⟨outgoing, present, contains⟩ := of_decide_eq_true counted
    exact decide_eq_true ⟨outgoing, (mem_nodeIds_withPage ready).mpr (.inl present), contains⟩
  · rw [load_same ready (by omega)]

/-- A child before the offset stays away, as the offset only grows. -/
theorem never_loaded (here : loading.children[index]? = some child)
    (before : index < loading.canvas.currentChildrenCount types loading.parentId)
    (missing : child.node.urn ∉ loading.canvas.nodeIds) (calls : Nat) :
    loading.canvas.currentChildrenCount types loading.parentId ≤
        (loading.run calls).currentChildrenCount types loading.parentId ∧
      child.node.urn ∉ (loading.run calls).nodeIds := by
  induction calls with
  | zero => exact ⟨Nat.le_refl _, missing⟩
  | succ calls ih =>
      obtain ⟨grown, absent⟩ := ih
      have ready := loading.ready_run calls
      refine ⟨grown.trans (count_load ready calls), ?_⟩
      rw [run]
      by_cases few : (loading.run calls).currentChildrenCount types loading.parentId <
          loading.children.length
      · rw [load_page ready few, mem_nodeIds_withPage ready]
        rintro (old | ⟨sibling, inPage, same⟩)
        · exact absent old
        · obtain ⟨other, there, low, _⟩ := mem_page_iff.mp inPage
          rw [index_unique here there same] at low
          omega
      · rwa [load_same ready (by omega)]

/-- No more children are loaded than are counted. -/
theorem absent_of_first (loading : Loading Content types)
    (first : ∀ index child, loading.children[index]? = some child →
      index < loading.canvas.currentChildrenCount types loading.parentId →
      child.node.urn ∈ loading.canvas.nodeIds)
    (here : loading.children[index]? = some child)
    (after : loading.canvas.currentChildrenCount types loading.parentId ≤ index) :
    child.node.urn ∉ loading.canvas.nodeIds := by
  intro present
  let count := loading.canvas.currentChildrenCount types loading.parentId
  obtain ⟨inside, _⟩ := List.getElem?_eq_some_iff.mp here
  let some' := loading.children.take count ++ [child]
  have sublist : some'.Sublist loading.children := by
    rw [← List.take_append_drop count loading.children]
    refine (List.Sublist.refl _).append (List.singleton_sublist.mpr ?_)
    refine List.mem_iff_getElem?.mpr ⟨index - count, ?_⟩
    rw [List.getElem?_drop, Nat.add_sub_cancel' after, here]
  have distinct := loading.distinct.sublist (sublist.map fun child => child.node.urn)
  have loaded : some'.map (fun child => child.node.urn) ⊆ (loading.canvas.edges.filter fun edge =>
      edge.source = loading.parentId ∧ edge.target ∈ loading.canvas.nodeIds ∧
        types.isContainmentEdge edge).map LineageEdge.target := by
    intro urn member
    obtain ⟨loadedChild, isSome, rfl⟩ := List.mem_map.mp member
    have onCanvas : loadedChild.node.urn ∈ loading.canvas.nodeIds := by
      rcases List.mem_append.mp isSome with early | last
      · obtain ⟨place, there⟩ := List.mem_iff_getElem?.mp early
        rw [List.getElem?_take] at there
        split at there
        · exact first place loadedChild there ‹_›
        · cases there
      · rw [List.mem_singleton.mp last]
        exact present
    have isLoaded := (loading.someLoaded loadedChild (sublist.subset isSome)).resolve_right
      fun unloaded => unloaded.1 onCanvas
    obtain ⟨_, edge, inEdges, source, target, contains⟩ := isLoaded
    exact List.mem_map.mpr ⟨edge, List.mem_filter.mpr
      ⟨inEdges, decide_eq_true ⟨source, target ▸ onCanvas, contains⟩⟩, target⟩
  have fewer := (List.subperm_of_subset distinct loaded).length_le
  rw [List.length_map, List.length_map, List.length_append, List.length_singleton,
    List.length_take] at fewer
  have isCount : (loading.canvas.edges.filter fun edge =>
      edge.source = loading.parentId ∧ edge.target ∈ loading.canvas.nodeIds ∧
        types.isContainmentEdge edge).length = count := rfl
  rw [isCount] at fewer
  omega

theorem nodeIds_run (present : id ∈ loading.canvas.nodeIds) (calls : Nat) :
    id ∈ (loading.run calls).nodeIds := by
  induction calls with
  | zero => exact present
  | succ calls ih => exact nodeIds_load (loading.ready_run calls) calls ih

/-- Children that are loaded out of order are passed over by the offset. -/
theorem loadChildren_loads_iff (loading : Loading Content types) :
    loading.LoadsAll ↔ loading.LoadedInOrder := by
  constructor
  · rintro ⟨⟨calls, whole⟩, _⟩
    have first (index : Nat) (child : Child Content)
        (here : loading.children[index]? = some child)
        (before : index < loading.canvas.currentChildrenCount types loading.parentId) :
        child.node.urn ∈ loading.canvas.nodeIds := by
      by_contra missing
      exact (never_loaded here before missing calls).2 (whole child (List.mem_of_getElem? here))
    refine .inr fun index child here => ⟨?_, first index child here⟩
    intro present
    by_contra after
    exact absent_of_first loading first here (Nat.le_of_not_lt after) present
  · rintro (whole | ordered)
    · refine ⟨⟨0, whole⟩, ?_⟩
      rintro calls ⟨child, member, missing⟩
      exact absurd (nodeIds_run (whole child member) calls) missing
    · refine loadsAll_of_inOrder ⟨loading.ready_run 0, rfl, ?_, ?_⟩
      · intro index child here before
        exact (ordered index child here).mpr before
      · intro index child here after
        refine (loading.someLoaded child (List.mem_of_getElem? here)).resolve_left ?_
        rintro ⟨present, _⟩
        have before := (ordered index child here).mp present
        omega

end Loading

theorem parent_named : "p" ≠ "" := by decide

/-- Of two children the second is loaded. -/
def secondLoaded : Loading Unit ⟨id, ["CONTAINS"]⟩ where
  parentId := "p"
  named := parent_named
  children := [⟨⟨"a", none, ()⟩, ⟨"e1", "p", "a", "CONTAINS"⟩⟩,
    ⟨⟨"b", none, ()⟩, ⟨"e2", "p", "b", "CONTAINS"⟩⟩]
  distinct := by decide
  distinctEdges := by decide
  joins := by simp [EdgeTypes.isContainmentEdge, EdgeTypes.isContainmentEdgeType,
    EdgeTypes.normalizeEdgeType, toCanvasEdge]
  lineage := fun _ => []
  ofLineage := nofun
  canvas := {
    nodes := [⟨"p", none, some 2, none, ()⟩, ⟨"b", none, none, none, ()⟩]
    edges := [⟨"e2", "p", "b", "CONTAINS", ""⟩]
    nodeIndex := {"p", "b"}
    edgeIndex := {"e2"} }
  exact := ⟨by simp [KeyedGraph.nodeKeys, graphKeys], by simp [KeyedGraph.edgeKeys, graphKeys]⟩
  parentNode := ⟨"p", none, some 2, none, ()⟩
  found := rfl
  counted := rfl
  someLoaded := by
    refine List.forall_mem_cons.mpr ⟨.inr ⟨by decide, by decide, ?_⟩,
      List.forall_mem_cons.mpr ⟨.inl ⟨by decide, _, List.mem_cons_self, rfl, rfl, by decide⟩, nofun⟩⟩
    intro edge member _ isTarget
    cases List.mem_singleton.mp member
    revert isTarget
    decide

/-- The offset is one, so that the first child is never asked for. -/
theorem secondLoaded_stuck : ¬ secondLoaded.LoadsAll := by
  rintro ⟨_, progress⟩
  obtain ⟨child, member, missing, present⟩ := progress 0
    ⟨_, List.mem_cons_self, by decide⟩
  have same : (secondLoaded.run 1).nodeIds = (secondLoaded.run 0).nodeIds := by decide
  rw [same] at present
  exact missing present

end Univiz.Hydration
