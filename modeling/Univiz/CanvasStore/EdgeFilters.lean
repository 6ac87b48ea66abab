import Mathlib.Logic.Relation
import Univiz.CanvasStore.Graph
import Univiz.Data.DepthFirst

namespace Univiz.CanvasStore

open Univiz.Data

/-! `findUpstreamEdges` and `findDownstreamEdges` of `useEdgeFilters`: the edges on all paths to
or from a node. -/

deriving instance DecidableEq for LineageEdge

/-- The edges of the canvas, with distinct ids. -/
structure EdgeList where
  edges : List LineageEdge
  distinct : (edges.map LineageEdge.id).Nodup

/-- The edges that meet the node with their `near` end, and then those behind them.  The depth
bounds the calls below each other. -/
def findEdges (near far : LineageEdge → String) (edges : List LineageEdge) :
    Nat → String → Finset String → Option (List LineageEdge × Finset String)
  | 0, _, _ => none
  | depth + 1, nodeId, visited =>
      walkEach LineageEdge.id (fun edge => findEdges near far edges depth (far edge))
        (edges.filter fun edge => near edge = nodeId ∧ edge.id ∉ visited) visited

def findUpstreamEdges (edges : List LineageEdge) (depth : Nat) (nodeId : String) :
    Option (List LineageEdge) :=
  (findEdges LineageEdge.target LineageEdge.source edges depth nodeId ∅).map Prod.fst

def findDownstreamEdges (edges : List LineageEdge) (depth : Nat) (nodeId : String) :
    Option (List LineageEdge) :=
  (findEdges LineageEdge.source LineageEdge.target edges depth nodeId ∅).map Prod.fst

/-- The search ends with a list that has just the wanted edges, each of them once. -/
def FindsOnce (search : Nat → Option (List LineageEdge)) (wanted : LineageEdge → Prop) : Prop :=
  ∃ depth found, search depth = some found ∧ found.Nodup ∧ ∀ edge, edge ∈ found ↔ wanted edge

/-- An edge leads from the first node to the second. -/
def Leads (edges : List LineageEdge) (source target : String) : Prop :=
  ∃ edge ∈ edges, edge.source = source ∧ edge.target = target

section Side

variable (near far : LineageEdge → String) (edges : List LineageEdge)

def edgesAt (nodeId : String) : List LineageEdge := edges.filter fun edge => near edge = nodeId

/-- The first path from the node that ends with an edge, in the order of the list; no edge
occurs on it twice. -/
def FirstPath (nodeId : String) (goal : LineageEdge) (path : List LineageEdge) : Prop :=
  IsFirst (edges.idxOf ·) (fun edge => edgesAt near edges (far edge)) ∅ (edgesAt near edges nodeId)
    goal path

/-- On the first path to an edge, no edge before it meets the node that it meets. -/
def MeetsOnce (nodeId : String) : Prop :=
  ∀ goal path, FirstPath near far edges nodeId goal path →
    ∀ edge ∈ path.dropLast, near edge ≠ near goal

variable {near far edges} {nodeId : String} {edge goal : LineageEdge} {depth : Nat}

theorem mem_edgesAt : edge ∈ edgesAt near edges nodeId ↔ edge ∈ edges ∧ near edge = nodeId := by
  rw [edgesAt, List.mem_filter, decide_eq_true_iff]

theorem findEdges_eq_walk {visited : Finset String} :
    findEdges near far edges depth nodeId visited =
      walk LineageEdge.id (fun edge => edgesAt near edges (far edge)) depth
        (edgesAt near edges nodeId) visited := by
  induction depth generalizing nodeId visited with
  | zero => rfl
  | succ depth ih =>
      have below : (fun edge => findEdges near far edges depth (far edge)) = fun edge =>
          walk LineageEdge.id (fun edge => edgesAt near edges (far edge)) depth
            (edgesAt near edges (far edge)) := funext fun edge => funext fun visited => ih
      rw [findEdges, walk, below, edgesAt, List.filter_filter]
      simp only [Bool.decide_and, Bool.and_comm]

theorem placed_edgesAt (distinct : edges.Nodup) :
    Placed (edges.idxOf ·) (edgesAt near edges nodeId) := by
  refine List.Pairwise.filter _ (List.pairwise_iff_getElem.mpr fun first second _ _ before => ?_)
  change edges.idxOf edges[first] < edges.idxOf edges[second]
  rwa [distinct.idxOf_getElem, distinct.idxOf_getElem]

theorem passes_iff {blocked : Finset LineageEdge} {path : List LineageEdge} (listed : goal ∈ edges)
    (trail : TrailTo (fun edge => edgesAt near edges (far edge)) blocked
      (edgesAt near edges nodeId) goal path) :
    Passes (fun edge => edgesAt near edges (far edge)) goal (edgesAt near edges nodeId) path ↔
      ∃ edge ∈ path.dropLast, near edge = near goal := by
  induction path generalizing nodeId blocked with
  | nil => exact absurd trail not_trailTo_nil
  | cons edge rest ih =>
      obtain ⟨member, -, ⟨rfl, -⟩ | onward⟩ := trailTo_cons.mp trail
      · simp [Passes]
      · have longer : rest ≠ [] := by
          rintro rfl
          exact not_trailTo_nil onward
        have here := (mem_edgesAt.mp member).2
        rw [Passes, ih onward, List.dropLast_cons_of_ne_nil longer, List.exists_mem_cons_iff,
          mem_edgesAt, here, and_iff_right longer, and_iff_right listed]
        exact or_congr_left eq_comm

/-- An edge that meets the first node with its near end, and the second with its far end. -/
def Behind (near far : LineageEdge → String) (edges : List LineageEdge) (node other : String) :
    Prop :=
  ∃ edge ∈ edges, near edge = node ∧ far edge = other

/-- The edges that the search is for. -/
def Wanted (near far : LineageEdge → String) (edges : List LineageEdge) (nodeId : String)
    (edge : LineageEdge) : Prop :=
  edge ∈ edges ∧ Relation.ReflTransGen (Behind near far edges) nodeId (near edge)

theorem fresh_iff_wanted :
    Fresh (fun edge => edgesAt near edges (far edge)) ∅ (edgesAt near edges nodeId) edge ↔
      Wanted near far edges nodeId edge := by
  constructor
  · intro fresh
    induction fresh with
    | root listed _ =>
        obtain ⟨member, here⟩ := mem_edgesAt.mp listed
        exact ⟨member, here ▸ .refl⟩
    | step _ follows _ ih =>
        obtain ⟨member, here⟩ := mem_edgesAt.mp follows
        exact ⟨member, here ▸ ih.2.tail ⟨_, ih.1, rfl, rfl⟩⟩
  · rintro ⟨member, path⟩
    generalize ends : near edge = node at path
    induction path generalizing edge with
    | refl => exact .root (mem_edgesAt.mpr ⟨member, ends⟩) (Finset.notMem_empty _)
    | tail _ last ih =>
        obtain ⟨before, listed, here, rfl⟩ := last
        exact .step (ih listed here) (mem_edgesAt.mpr ⟨member, ends⟩) (Finset.notMem_empty _)

theorem direct_iff_meetsOnce :
    Direct (edges.idxOf ·) (fun edge => edgesAt near edges (far edge)) ∅ ∅
        (edgesAt near edges nodeId) (edgesAt near edges nodeId) ↔
      MeetsOnce near far edges nodeId := by
  refine forall₂_congr fun goal path => ?_
  rw [imp_iff_right (Finset.notMem_empty goal)]
  refine forall_congr' fun first => ?_
  rw [passes_iff (fresh_iff_wanted.mp first.1.fresh).1 first.1]
  simp only [not_exists, not_and, ne_eq]

/-- The ids of the visited edges stand for the edges. -/
theorem findEdges_eq_some (list : EdgeList) {found : List LineageEdge} :
    (findEdges near far list.edges depth nodeId ∅).map Prod.fst = some found ↔
      ∃ left, walk id (fun edge => edgesAt near list.edges (far edge)) depth
        (edgesAt near list.edges nodeId) ∅ = some (found, left) := by
  have listed : ∀ node, ∀ edge ∈ edgesAt near list.edges node, edge ∈ list.edges.toFinset :=
    fun _ _ member => List.mem_toFinset.mpr (mem_edgesAt.mp member).1
  have injective : ∀ first ∈ list.edges.toFinset, ∀ second ∈ list.edges.toFinset,
      first.id = second.id → first = second := fun first inFirst second inSecond =>
    List.inj_on_of_nodup_map list.distinct (List.mem_toFinset.mp inFirst)
      (List.mem_toFinset.mp inSecond)
  have image : walk LineageEdge.id (fun edge => edgesAt near list.edges (far edge)) depth
      (edgesAt near list.edges nodeId) (Finset.image LineageEdge.id ∅) =
        (walk id (fun edge => edgesAt near list.edges (far edge)) depth
          (edgesAt near list.edges nodeId) ∅).map (keyed LineageEdge.id) :=
    walk_image injective (fun edge => listed (far edge)) (listed nodeId) (Finset.empty_subset _)
  rw [Finset.image_empty] at image
  rw [findEdges_eq_walk, image, Option.map_map, Option.map_eq_some_iff]
  simp [keyed]

/-- The search always ends, with the wanted edges; it has none twice exactly when the first
paths are straight. -/
theorem findEdges_once_iff (list : EdgeList) (nodeId : String) :
    FindsOnce (fun depth => (findEdges near far list.edges depth nodeId ∅).map Prod.fst)
      (Wanted near far list.edges nodeId) ↔ MeetsOnce near far list.edges nodeId := by
  have distinct : list.edges.Nodup := List.Nodup.of_map _ list.distinct
  have listed : ∀ node, ∀ edge ∈ edgesAt near list.edges node, edge ∈ list.edges.toFinset :=
    fun _ _ member => List.mem_toFinset.mpr (mem_edgesAt.mp member).1
  have complete : Complete (fun edge => edgesAt near list.edges (far edge)) ∅ ∅ :=
    ⟨Finset.Subset.refl _, fun _ member => absurd member (Finset.notMem_empty _)⟩
  have nodup {depth : Nat} {found : List LineageEdge} {left : Finset LineageEdge}
      (walked : walk id (fun edge => edgesAt near list.edges (far edge)) depth
        (edgesAt near list.edges nodeId) ∅ = some (found, left)) :
      found.Nodup ↔ MeetsOnce near far list.edges nodeId :=
    (walk_nodup_iff (fun edge => listed (far edge)) (fun _ => placed_edgesAt distinct) complete
      (placed_edgesAt distinct) walked).trans direct_iff_meetsOnce
  constructor
  · rintro ⟨depth, found, ended, once, -⟩
    obtain ⟨left, walked⟩ := (findEdges_eq_some list).mp ended
    exact (nodup walked).mp once
  · intro straight
    obtain ⟨found, left, walked⟩ := walk_isSome (fun edge => listed (far edge)) (listed nodeId)
      (Nat.lt_succ_self (list.edges.toFinset \ ∅).card)
    refine ⟨_, found, (findEdges_eq_some list).mpr ⟨left, walked⟩, (nodup walked).mpr straight, ?_⟩
    intro edge
    rw [(walk_finds walked).found_iff, fresh_iff_wanted]

end Side

theorem behind_upstream {edges : List LineageEdge} {node other : String} :
    Behind LineageEdge.target LineageEdge.source edges node other ↔ Leads edges other node := by
  simp only [Behind, Leads, and_comm]

theorem wanted_upstream {edges : List LineageEdge} {nodeId : String} {edge : LineageEdge} :
    Wanted LineageEdge.target LineageEdge.source edges nodeId edge ↔
      edge ∈ edges ∧ Relation.ReflTransGen (Leads edges) edge.target nodeId := by
  have swapped : Behind LineageEdge.target LineageEdge.source edges =
      Function.swap (Leads edges) := by
    funext node other
    exact propext behind_upstream
  rw [Wanted, swapped, Relation.reflTransGen_swap]

/-- `findUpstreamEdges` returns the edges that lead to the node, and `findDownstreamEdges` those
that come from it, each of them once. -/
def FindsEachOnce (list : EdgeList) (nodeId : String) : Prop :=
  FindsOnce (findUpstreamEdges list.edges · nodeId)
    (fun edge => edge ∈ list.edges ∧
      Relation.ReflTransGen (Leads list.edges) edge.target nodeId) ∧
  FindsOnce (findDownstreamEdges list.edges · nodeId)
    (fun edge => edge ∈ list.edges ∧
      Relation.ReflTransGen (Leads list.edges) nodeId edge.source)

theorem findsEachOnce_iff (list : EdgeList) (nodeId : String) :
    FindsEachOnce list nodeId ↔
      MeetsOnce LineageEdge.target LineageEdge.source list.edges nodeId ∧
        MeetsOnce LineageEdge.source LineageEdge.target list.edges nodeId := by
  have upstream : Wanted LineageEdge.target LineageEdge.source list.edges nodeId = fun edge =>
      edge ∈ list.edges ∧ Relation.ReflTransGen (Leads list.edges) edge.target nodeId :=
    funext fun _ => propext wanted_upstream
  rw [← findEdges_once_iff, ← findEdges_once_iff, upstream]
  exact Iff.rfl

/-! A cycle through the first of two edges into a node brings the search back to the node, where
it takes the second edge before the call above does. -/

def cycle : EdgeList where
  edges := [⟨"back", "y", "x"⟩, ⟨"other", "z", "x"⟩, ⟨"forth", "x", "y"⟩]
  distinct := by decide

theorem cycle_found (depth : Nat) : findUpstreamEdges cycle.edges (depth + 4) "x" =
    some [⟨"back", "y", "x"⟩, ⟨"forth", "x", "y"⟩, ⟨"other", "z", "x"⟩, ⟨"other", "z", "x"⟩] := rfl

theorem cycle_repeats : ¬ FindsEachOnce cycle "x" := by
  rintro ⟨⟨depth, found, ended, once, -⟩, -⟩
  match depth with
  | 0 | 1 | 2 | 3 => cases ended
  | depth + 4 =>
      cases (cycle_found depth).symm.trans ended
      exact absurd once (by decide)

end Univiz.CanvasStore
