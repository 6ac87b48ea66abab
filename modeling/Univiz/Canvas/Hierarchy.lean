namespace Univiz.Canvas

/-! The trees of a canvas.  A loop of the source that takes its next node from a stack
is the list of what it visits, in that order. -/

/-- The fields of a `HierarchyNode` that the projection of edges reads. -/
inductive HierarchyNode where
  | node (id urn : String) (children : List HierarchyNode)

namespace HierarchyNode

def id : HierarchyNode → String
  | node id _ _ => id

def urn : HierarchyNode → String
  | node _ urn _ => urn

def children : HierarchyNode → List HierarchyNode
  | node _ _ children => children

def keys (node : HierarchyNode) : List String :=
  if node.urn = "" then [node.id] else [node.urn, node.id]

theorem id_mem_keys (node : HierarchyNode) : node.id ∈ node.keys := by
  unfold keys
  split <;> simp

end HierarchyNode

mutual

def preorder : HierarchyNode → List HierarchyNode
  | .node id urn children => .node id urn children :: preorderAll children

def preorderAll : List HierarchyNode → List HierarchyNode
  | [] => []
  | node :: rest => preorder node ++ preorderAll rest

end

/-- The node has this path from the roots, which does not contain it. -/
def Below : List HierarchyNode → List HierarchyNode → HierarchyNode → Prop
  | roots, [], node => node ∈ roots
  | roots, ancestor :: path, node => ancestor ∈ roots ∧ Below ancestor.children path node

/-- Nodes have no entry in common. -/
def Apart (node other : HierarchyNode) : Prop := ∀ key ∈ node.keys, key ∉ other.keys

instance : DecidableRel Apart :=
  fun node other => inferInstanceAs (Decidable (∀ key ∈ node.keys, key ∉ other.keys))

variable {roots : List HierarchyNode} {node other ancestor : HierarchyNode}
  {path rest : List HierarchyNode} {key : String}

theorem preorder_eq (node : HierarchyNode) : preorder node = node :: preorderAll node.children := by
  cases node
  rfl

theorem mem_preorderAll : node ∈ preorderAll roots ↔ ∃ root ∈ roots, node ∈ preorder root := by
  induction roots with
  | nil => simp [preorderAll]
  | cons root rest ih => simp [preorderAll, ih]

theorem below_append : Below roots (path ++ ancestor :: rest) node ↔
    Below roots path ancestor ∧ Below ancestor.children rest node := by
  induction path generalizing roots with
  | nil => rfl
  | cons head path ih => simp [Below, ih, and_assoc]

theorem Below.mono {more : List HierarchyNode} (below : Below roots path node)
    (fewer : roots ⊆ more) : Below more path node := by
  cases path with
  | nil => exact fewer below
  | cons ancestor path => exact ⟨fewer below.1, below.2⟩

mutual

theorem below_of_mem_preorder (root : HierarchyNode) (member : node ∈ preorder root) :
    node = root ∨ ∃ path, Below root.children path node := by
  cases root with
  | node id urn children =>
      rcases List.mem_cons.mp member with same | deeper
      · exact .inl same
      · exact .inr (below_of_mem_preorderAll children deeper)

theorem below_of_mem_preorderAll (roots : List HierarchyNode) (member : node ∈ preorderAll roots) :
    ∃ path, Below roots path node := by
  cases roots with
  | nil => cases member
  | cons root rest =>
      rcases List.mem_append.mp member with first | later
      · rcases below_of_mem_preorder root first with rfl | ⟨path, below⟩
        · exact ⟨[], List.mem_cons_self⟩
        · exact ⟨root :: path, List.mem_cons_self, below⟩
      · obtain ⟨path, below⟩ := below_of_mem_preorderAll rest later
        exact ⟨path, below.mono (List.subset_cons_self root rest)⟩

end

theorem mem_preorderAll_of_below (below : Below roots path node) : node ∈ preorderAll roots := by
  induction path generalizing roots with
  | nil =>
      apply mem_preorderAll.mpr
      refine ⟨node, below, ?_⟩
      rw [preorder_eq]
      exact List.mem_cons_self
  | cons ancestor path ih =>
      apply mem_preorderAll.mpr
      refine ⟨ancestor, below.1, ?_⟩
      rw [preorder_eq]
      exact List.mem_cons_of_mem _ (ih below.2)

theorem mem_preorderAll_iff_below : node ∈ preorderAll roots ↔ ∃ path, Below roots path node :=
  ⟨below_of_mem_preorderAll roots, fun ⟨_, below⟩ => mem_preorderAll_of_below below⟩

mutual

/-- The node and what is below it, with their paths. -/
def placesOf (above : List HierarchyNode) :
    HierarchyNode → List (List HierarchyNode × HierarchyNode)
  | .node id urn children =>
      (above, .node id urn children) :: places (above ++ [.node id urn children]) children

def places (above : List HierarchyNode) :
    List HierarchyNode → List (List HierarchyNode × HierarchyNode)
  | [] => []
  | node :: rest => placesOf above node ++ places above rest

end

mutual

theorem mem_placesOf (above : List HierarchyNode) (root : HierarchyNode)
    {place : List HierarchyNode × HierarchyNode} :
    place ∈ placesOf above root ↔
      place = (above, root) ∨
        ∃ path, place.1 = above ++ root :: path ∧ Below root.children path place.2 := by
  cases root with
  | node id urn children =>
      rw [placesOf, List.mem_cons, mem_places]
      simp [HierarchyNode.children]

theorem mem_places (above roots : List HierarchyNode)
    {place : List HierarchyNode × HierarchyNode} :
    place ∈ places above roots ↔ ∃ path, place.1 = above ++ path ∧ Below roots path place.2 := by
  cases roots with
  | nil =>
      constructor
      · intro member
        cases member
      · intro ⟨path, _, below⟩
        cases path with
        | nil => cases below
        | cons ancestor path => cases below.1
  | cons root rest =>
      rw [places, List.mem_append, mem_placesOf, mem_places]
      constructor
      · rintro ((rfl | ⟨path, same, below⟩) | ⟨path, same, below⟩)
        · exact ⟨[], (List.append_nil _).symm, List.mem_cons_self⟩
        · exact ⟨root :: path, same, List.mem_cons_self, below⟩
        · exact ⟨path, same, below.mono (List.subset_cons_self root rest)⟩
      · intro ⟨path, same, below⟩
        cases path with
        | nil =>
            rcases List.mem_cons.mp below with here | later
            · exact .inl (.inl (Prod.ext (same.trans (List.append_nil _)) here))
            · exact .inr ⟨[], same, later⟩
        | cons ancestor path =>
            obtain ⟨member, below⟩ := below
            rcases List.mem_cons.mp member with rfl | later
            · exact .inl (.inr ⟨path, same, below⟩)
            · exact .inr ⟨ancestor :: path, same, later, below⟩

end

theorem root_eq (distinct : (preorderAll roots).Pairwise Apart) {root root' : HierarchyNode}
    (member : root ∈ roots) (member' : root' ∈ roots) (inside : node ∈ preorder root)
    (inside' : other ∈ preorder root') (shared : key ∈ node.keys) (shared' : key ∈ other.keys) :
    root = root' := by
  induction roots with
  | nil => cases member
  | cons head rest ih =>
      obtain ⟨-, later, apart⟩ := List.pairwise_append.mp distinct
      rcases List.mem_cons.mp member with rfl | among
      · rcases List.mem_cons.mp member' with rfl | among'
        · rfl
        · have away := mem_preorderAll.mpr ⟨root', among', inside'⟩
          exact absurd shared' (apart node inside other away key shared)
      · rcases List.mem_cons.mp member' with rfl | among'
        · have away := mem_preorderAll.mpr ⟨root, among, inside⟩
          exact absurd shared (apart other inside' node away key shared')
        · exact ih later among among'

theorem pairwise_children (distinct : (preorderAll roots).Pairwise Apart) (member : node ∈ roots) :
    (node :: preorderAll node.children).Pairwise Apart := by
  induction roots with
  | nil => cases member
  | cons head rest ih =>
      obtain ⟨first, later, -⟩ := List.pairwise_append.mp distinct
      rcases List.mem_cons.mp member with rfl | member
      · rwa [preorder_eq] at first
      · exact ih later member

/-- Two nodes of a forest with a common entry are the same node at the same place. -/
theorem below_unique {path' : List HierarchyNode} (distinct : (preorderAll roots).Pairwise Apart)
    (below : Below roots path node) (below' : Below roots path' other)
    (shared : key ∈ node.keys) (shared' : key ∈ other.keys) : path = path' ∧ node = other := by
  have inside : ∀ {root : HierarchyNode} {path : List HierarchyNode} {node : HierarchyNode},
      Below root.children path node → node ∈ preorder root := by
    intro root path node below
    rw [preorder_eq]
    exact List.mem_cons_of_mem _ (mem_preorderAll_of_below below)
  have self : ∀ root : HierarchyNode, root ∈ preorder root := by
    intro root
    rw [preorder_eq]
    exact List.mem_cons_self
  induction path generalizing roots path' with
  | nil =>
      cases path' with
      | nil =>
          have same := root_eq distinct below below' (self node) (self other) shared shared'
          exact ⟨rfl, same⟩
      | cons root' path' =>
          obtain ⟨member', deeper⟩ := below'
          have same := root_eq distinct below member' (self node) (inside deeper) shared shared'
          subst same
          have apart := (List.pairwise_cons.mp (pairwise_children distinct member')).1
          exact absurd shared' (apart other (mem_preorderAll_of_below deeper) key shared)
  | cons root path ih =>
      obtain ⟨member, deep⟩ := below
      cases path' with
      | nil =>
          have same := root_eq distinct member below' (inside deep) (self other) shared shared'
          subst same
          have apart := (List.pairwise_cons.mp (pairwise_children distinct member)).1
          exact absurd shared (apart node (mem_preorderAll_of_below deep) key shared')
      | cons root' path' =>
          obtain ⟨member', deep'⟩ := below'
          have same := root_eq distinct member member' (inside deep) (inside deep') shared shared'
          subst same
          have children := (List.pairwise_cons.mp (pairwise_children distinct member)).2
          obtain ⟨rfl, same⟩ := ih children deep deep'
          exact ⟨rfl, same⟩

end Univiz.Canvas
