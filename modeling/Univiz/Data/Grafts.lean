import Mathlib.Data.List.Nodup
import Univiz.Data.Rose

namespace Univiz.Data

namespace Rose

/-! Taking a node out of a forest, with what is below it, and hanging it under another. -/

variable {α κ : Type} [DecidableEq κ] (key : α → κ)

mutual

def takeTree (name : κ) : Rose α → Option (Rose α) × List (Rose α)
  | .node label children =>
      if key label = name then (some (.node label children), [])
      else
        let (taken, kept) := take name children
        (taken, [.node label kept])

/-- The last node of a name that is not below another, and the forest without those nodes. -/
def take (name : κ) : List (Rose α) → Option (Rose α) × List (Rose α)
  | [] => (none, [])
  | tree :: rest =>
      let (first, kept) := takeTree name tree
      let (later, others) := take name rest
      (later.or first, kept ++ others)

end

mutual

def hangTree (branch : Rose α) (name : κ) : Rose α → Rose α
  | .node label children =>
      if key label = name then .node label (children ++ [branch])
      else .node label (hang branch name children)

/-- The forest with the branch as the last child of each node of a name that is not below
another. -/
def hang (branch : Rose α) (name : κ) : List (Rose α) → List (Rose α)
  | [] => []
  | tree :: rest => hangTree branch name tree :: hang branch name rest

end

variable {key} {name : κ} {tree branch node : Rose α} {forest rest : List (Rose α)}

mutual

theorem takeTree_of_notMem (tree : Rose α) (absent : name ∉ keys key [tree]) :
    takeTree key name tree = (none, [tree]) := by
  cases tree with
  | node label children =>
      rw [keys_node, List.mem_cons, not_or] at absent
      simp only [takeTree, if_neg (Ne.symm absent.1), take_of_notMem children absent.2]

theorem take_of_notMem (forest : List (Rose α)) (absent : name ∉ keys key forest) :
    take key name forest = (none, forest) := by
  cases forest with
  | nil => rfl
  | cons tree rest =>
      rw [keys_cons, List.mem_append, not_or] at absent
      simp only [take, takeTree_of_notMem tree absent.1, take_of_notMem rest absent.2,
        Option.or_none, List.singleton_append]

end

/-- A branch of a name has been taken out of a forest. -/
structure Takes (key : α → κ) (name : κ) (forest : List (Rose α)) (branch : Rose α)
    (kept : List (Rose α)) : Prop where
  named : key branch.label = name
  member : branch ∈ nodesAll forest
  perm : (keys key forest).Perm (keys key [branch] ++ keys key kept)

mutual

theorem takes_takeTree (tree : Rose α) (distinct : (keys key [tree]).Nodup)
    (member : name ∈ keys key [tree]) : ∃ branch kept,
      takeTree key name tree = (some branch, kept) ∧ Takes key name [tree] branch kept := by
  cases tree with
  | node label children =>
      simp only [takeTree]
      by_cases here : key label = name
      · rw [if_pos here]
        refine ⟨_, _, rfl, here, ?_, ?_⟩
        · exact mem_nodesAll_of_mem (List.mem_singleton_self _)
        · rw [keys_nil, List.append_nil]
      · rw [keys_node] at distinct member
        obtain ⟨_, distinct⟩ := List.nodup_cons.mp distinct
        have below := (List.mem_cons.mp member).resolve_left (Ne.symm here)
        obtain ⟨branch, kept, took, takes⟩ := takes_take children distinct below
        refine ⟨branch, [.node label kept], by rw [if_neg here, took], takes.named, ?_, ?_⟩
        · exact mem_nodesAll.mpr ⟨_, List.mem_singleton_self _, List.mem_cons_of_mem _ takes.member⟩
        · rw [keys_node, keys_node]
          exact (takes.perm.cons _).trans List.perm_middle.symm

theorem takes_take (forest : List (Rose α)) (distinct : (keys key forest).Nodup)
    (member : name ∈ keys key forest) : ∃ branch kept,
      take key name forest = (some branch, kept) ∧ Takes key name forest branch kept := by
  cases forest with
  | nil => cases member
  | cons tree rest =>
      rw [keys_cons] at distinct member
      obtain ⟨distinctFirst, distinctRest, apart⟩ := List.nodup_append.mp distinct
      rcases List.mem_append.mp member with first | later
      · have absent : name ∉ keys key rest := fun later => apart name first name later rfl
        obtain ⟨branch, kept, took, takes⟩ := takes_takeTree tree distinctFirst first
        refine ⟨branch, kept ++ rest, ?_, takes.named, ?_, ?_⟩
        · simp only [take, took, take_of_notMem rest absent, Option.none_or]
        · rw [← List.singleton_append, nodesAll_append]
          exact List.mem_append_left _ takes.member
        · rw [keys_cons, keys_append, ← List.append_assoc]
          exact takes.perm.append_right _
      · have absent : name ∉ keys key [tree] := fun first => apart name first name later rfl
        obtain ⟨branch, kept, took, takes⟩ := takes_take rest distinctRest later
        refine ⟨branch, tree :: kept, ?_, takes.named, ?_, ?_⟩
        · simp only [take, took, takeTree_of_notMem tree absent, Option.some_or,
            List.singleton_append]
        · exact List.mem_append_right _ takes.member
        · rw [keys_cons, keys_cons tree kept]
          exact (takes.perm.append_left _).trans (List.perm_append_comm_assoc _ _ _)

end

theorem take_concat (absent : name ∉ keys key forest) (named : key tree.label = name) :
    take key name (forest ++ [tree]) = (some tree, forest) := by
  induction forest with
  | nil =>
      cases tree with
      | node label children =>
          have here : key label = name := named
          simp only [List.nil_append, take, takeTree, if_pos here, Option.none_or]
  | cons first rest ih =>
      rw [keys_cons, List.mem_append, not_or] at absent
      simp only [List.cons_append, take, takeTree_of_notMem first absent.1, ih absent.2,
        Option.or_none, List.nil_append]

mutual

theorem hangTree_of_notMem (tree : Rose α) (absent : name ∉ keys key [tree]) :
    hangTree key branch name tree = tree := by
  cases tree with
  | node label children =>
      rw [keys_node, List.mem_cons, not_or] at absent
      rw [hangTree, if_neg (Ne.symm absent.1), hang_of_notMem children absent.2]

theorem hang_of_notMem (forest : List (Rose α)) (absent : name ∉ keys key forest) :
    hang key branch name forest = forest := by
  cases forest with
  | nil => rfl
  | cons tree rest =>
      rw [keys_cons, List.mem_append, not_or] at absent
      rw [hang, hangTree_of_notMem tree absent.1, hang_of_notMem rest absent.2]

end

/-- A branch hangs below a node of a name, and the rest is as it was. -/
structure Hangs (key : α → κ) (branch : Rose α) (name : κ) (forest hung : List (Rose α)) :
    Prop where
  below : ∃ node ∈ nodesAll hung, key node.label = name ∧ branch ∈ node.children
  perm : (keys key hung).Perm (keys key [branch] ++ keys key forest)

mutual

theorem hangs_hangTree (tree : Rose α) (distinct : (keys key [tree]).Nodup)
    (member : name ∈ keys key [tree]) :
    Hangs key branch name [tree] [hangTree key branch name tree] := by
  cases tree with
  | node label children =>
      rw [hangTree]
      by_cases here : key label = name
      · rw [if_pos here]
        refine ⟨⟨_, mem_nodesAll_of_mem (List.mem_singleton_self _), here,
          List.mem_append_right _ (List.mem_singleton_self _)⟩, ?_⟩
        rw [keys_node, keys_node, keys_append]
        exact (List.perm_append_comm.cons _).trans List.perm_middle.symm
      · rw [if_neg here]
        rw [keys_node] at distinct member
        obtain ⟨_, distinct⟩ := List.nodup_cons.mp distinct
        have inside := (List.mem_cons.mp member).resolve_left (Ne.symm here)
        have hangs := hangs_hang children distinct inside
        obtain ⟨node, member, named, below⟩ := hangs.below
        refine ⟨⟨node, ?_, named, below⟩, ?_⟩
        · exact mem_nodesAll.mpr ⟨_, List.mem_singleton_self _, List.mem_cons_of_mem _ member⟩
        · rw [keys_node, keys_node]
          exact (hangs.perm.cons _).trans List.perm_middle.symm

theorem hangs_hang (forest : List (Rose α)) (distinct : (keys key forest).Nodup)
    (member : name ∈ keys key forest) : Hangs key branch name forest (hang key branch name forest) := by
  cases forest with
  | nil => cases member
  | cons tree rest =>
      rw [keys_cons] at distinct member
      obtain ⟨distinctFirst, distinctRest, apart⟩ := List.nodup_append.mp distinct
      rw [hang]
      rcases List.mem_append.mp member with first | later
      · have absent : name ∉ keys key rest := fun later => apart name first name later rfl
        have hangs : Hangs key branch name [tree] [hangTree key branch name tree] :=
          hangs_hangTree tree distinctFirst first
        obtain ⟨node, member, named, below⟩ := hangs.below
        rw [hang_of_notMem rest absent]
        refine ⟨⟨node, ?_, named, below⟩, ?_⟩
        · rw [← List.singleton_append, nodesAll_append]
          exact List.mem_append_left _ member
        · rw [keys_cons, keys_cons tree rest, ← List.append_assoc]
          exact hangs.perm.append_right _
      · have absent : name ∉ keys key [tree] := fun first => apart name first name later rfl
        have hangs : Hangs key branch name rest (hang key branch name rest) :=
          hangs_hang rest distinctRest later
        obtain ⟨node, member, named, below⟩ := hangs.below
        rw [hangTree_of_notMem tree absent]
        refine ⟨⟨node, List.mem_append_right _ member, named, below⟩, ?_⟩
        rw [keys_cons, keys_cons tree rest]
        exact (hangs.perm.append_left _).trans (List.perm_append_comm_assoc _ _ _)

end

/-- A node of a name is a root, or a child of a node of another name. -/
def HasParent (key : α → κ) (forest : List (Rose α)) (child : κ) : Option κ → Prop
  | none => ∃ root ∈ forest, key root.label = child
  | some parent => ∃ node ∈ nodesAll forest, key node.label = parent ∧
      ∃ below ∈ node.children, key below.label = child

omit [DecidableEq κ] in
theorem no_parent_of_root {child parent : κ} (distinct : (keys key forest).Nodup)
    (isRoot : HasParent key forest child none) : ¬ HasParent key forest child (some parent) := by
  rintro ⟨node, inside, _, below, member, named⟩
  obtain ⟨root, member', named'⟩ := isRoot
  have perm := (nodesAll_perm_children forest).map fun node => key node.label
  rw [List.map_append] at perm
  obtain ⟨_, _, apart⟩ := List.nodup_append.mp (perm.nodup_iff.mp distinct)
  exact apart child (List.mem_map.mpr ⟨root, member', named'⟩) child
    (List.mem_map.mpr ⟨below, List.mem_flatMap.mpr ⟨node, inside, member⟩, named⟩) rfl

end Rose

end Univiz.Data
