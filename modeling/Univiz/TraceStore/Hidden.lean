import Univiz.Canvas.ContainmentMaps
import Univiz.Data.Ascent
import Univiz.Data.Worklist
import Univiz.TraceStore.LineageTrace

namespace Univiz.TraceStore

open Univiz.Canvas Univiz.Data

/-! `buildHiddenUrns`: what is hidden because something above it is collapsed. -/

/-- What the walk reads of an edge. -/
structure EdgeEnds where
  sourceUrn : String
  targetUrn : String
  isContainment : Bool
deriving DecidableEq, Repr

variable {Content : Type} (ends : Content → EdgeEnds)

/-- The containment edges of a result, from parent to child. -/
def containmentPairs (edges : List (TraceEdge Content)) : List (String × String) :=
  edges.filterMap fun edge =>
    if (ends edge.content).isContainment then
      some ((ends edge.content).sourceUrn, (ends edge.content).targetUrn)
    else none

/-- The parent of each child by its last pair. -/
def lastParents (pairs : List (String × String)) : OrderedMap String String :=
  pairs.foldl (fun parents pair => parents.set pair.2 pair.1) .empty

/-- The walk goes on at a parent that is not empty. -/
def parentIn (parents : OrderedMap String String) (child : String) : Option String :=
  cursorAt (parents.get child)

section Walk

variable (rounds : Nat) (containmentParent : OrderedMap String String)
  (locallyCollapsed : Finset String)

/-- Whether the walk up from a node comes to one that is collapsed. -/
def hides (urn : String) : Option Bool :=
  if urn ∈ locallyCollapsed then some false
  else
    (climb (parentIn containmentParent)
      (fun cursor => if cursor ∈ locallyCollapsed then some cursor else none)
      rounds urn).map Option.isSome

def hide (hidden : Finset String) (node : GraphNode Content) : Option (Finset String) :=
  (hides rounds containmentParent locallyCollapsed node.urn).map fun isHidden =>
    if isHidden then insert node.urn hidden else hidden

end Walk

/-- There is no result where a walk does not end within the rounds. -/
def buildHiddenUrns (rounds : Nat) (result : Option (TraceResultV2 Content))
    (locallyCollapsed : Finset String) : Option (Finset String) :=
  match result with
  | none => some ∅
  | some result =>
      if locallyCollapsed = ∅ then some ∅
      else
        result.data.nodes.foldlM
          (hide rounds (lastParents (containmentPairs ends result.data.edges)) locallyCollapsed) ∅

variable {pairs : List (String × String)} {child above : String}

theorem get_lastParents : (lastParents pairs).get child = lastSource pairs child := by
  rw [lastParents]
  induction pairs using List.reverseRecOn with
  | nil => rfl
  | append_singleton init last ih =>
      obtain ⟨source, target⟩ := last
      rw [List.foldl_append, List.foldl_cons, List.foldl_nil, OrderedMap.get_set, ih,
        lastSource_concat]

/-- The parent by the last pair of a child, unless it is empty. -/
def lastParent (pairs : List (String × String)) (child : String) : Option String :=
  cursorAt (lastSource pairs child)

theorem parentIn_lastParents : parentIn (lastParents pairs) = lastParent pairs := by
  funext child
  rw [parentIn, get_lastParents, lastParent]

/-- Some pair has the child under the parent. -/
def Contained (pairs : List (String × String)) (child above : String) : Prop :=
  (above, child) ∈ pairs

theorem contained_of_lastSource (last : lastSource pairs child = some above) :
    Contained pairs child above := by
  simp only [lastSource, Option.map_eq_some_iff] at last
  obtain ⟨⟨source, target⟩, found, rfl⟩ := last
  have member : (source, target) ∈ pairs := List.mem_reverse.mp (List.mem_of_find?_eq_some found)
  have same : target = child := by simpa using List.find?_some found
  exact same ▸ member

theorem contained_of_lastParent (last : Above (lastParent pairs) child above) :
    Contained pairs child above :=
  contained_of_lastSource (cursorAt_eq_some.mp last).1

variable {parents : OrderedMap String String} {rounds : Nat}
  {locallyCollapsed hidden found : Finset String} {urn : String} {nodes : List (GraphNode Content)}

/-- No node is above itself that is above another or the other itself. -/
def Straight (parent : String → Option String) (urn : String) : Prop :=
  ∀ above, Relation.ReflTransGen (Above parent) urn above →
    ¬ Relation.TransGen (Above parent) above above

theorem hides_true (below : hides rounds parents locallyCollapsed urn = some true) :
    urn ∉ locallyCollapsed ∧
      ∃ above ∈ locallyCollapsed, Relation.TransGen (Above (parentIn parents)) urn above := by
  rw [hides] at below
  split at below
  · cases below
  · rename_i shown
    simp only [Option.map_eq_some_iff, Option.isSome_iff_exists] at below
    obtain ⟨_, ended, stopped, rfl⟩ := below
    obtain ⟨above, path, met⟩ := climb_found ended
    have collapsed : above ∈ locallyCollapsed := by
      by_contra free
      rw [if_neg free] at met
      cases met
    exact ⟨shown, above, collapsed, path⟩

theorem hides_false (apart : hides rounds parents locallyCollapsed urn = some false) :
    urn ∈ locallyCollapsed ∨ Straight (parentIn parents) urn ∧
      ∀ above ∈ locallyCollapsed, ¬ Relation.TransGen (Above (parentIn parents)) urn above := by
  rw [hides] at apart
  split at apart
  · rename_i collapsed
    exact .inl collapsed
  · simp only [Option.map_eq_some_iff, Option.isSome_eq_false_iff,
      Option.isNone_iff_eq_none] at apart
    obtain ⟨_, ended, rfl⟩ := apart
    obtain ⟨clear, straight⟩ := climb_clear ended
    refine .inr ⟨straight, ?_⟩
    intro above collapsed path
    have free := clear above path
    rw [if_pos collapsed] at free
    cases free

theorem mem_keys_of_parentIn (climbs : parentIn parents child = some above) :
    child ∈ parents.entries.map Prod.fst ∧ above ∈ parents.entries.map Prod.snd := by
  have entry := OrderedMap.get_eq_some.mp (cursorAt_eq_some.mp climbs).1
  exact ⟨List.mem_map_of_mem entry, List.mem_map_of_mem entry⟩

/-- One round more than there are children is enough for each walk that ends. -/
theorem exists_hides
    (ends : urn ∈ locallyCollapsed ∨ Straight (parentIn parents) urn ∨
      ∃ above ∈ locallyCollapsed, Relation.TransGen (Above (parentIn parents)) urn above) :
    ∃ isHidden,
      hides (parents.entries.length + 1) parents locallyCollapsed urn = some isHidden := by
  rw [hides]
  split
  · exact ⟨false, rfl⟩
  · rename_i shown
    let stop (cursor : String) : Option String :=
      if cursor ∈ locallyCollapsed then some cursor else none
    have stops : Straight (parentIn parents) urn ∨
        ∃ above, Relation.TransGen (Above (parentIn parents)) urn above ∧ stop above ≠ none := by
      rcases ends with collapsed | straight | ⟨above, collapsed, path⟩
      · exact absurd collapsed shown
      · exact .inl straight
      · refine .inr ⟨above, path, ?_⟩
        simp only [stop, if_pos collapsed]
        exact Option.some_ne_none above
    obtain ⟨fuel, result, ended⟩ := (climb_ends_iff urn stop
      (List.finite_toSet (parents.entries.map Prod.snd))
      (fun _ _ climbs => (mem_keys_of_parentIn climbs).2)).mpr stops
    have enough := climb_of_keys (fun _ _ climbs => (mem_keys_of_parentIn climbs).1) ended
    rw [List.length_map] at enough
    exact ⟨result.isSome, by rw [enough, Option.map_some]⟩

theorem mem_of_foldlM_hide
    (collected : nodes.foldlM (hide rounds parents locallyCollapsed) found = some hidden) :
    (∀ node ∈ nodes, ∃ isHidden, hides rounds parents locallyCollapsed node.urn = some isHidden) ∧
      ∀ urn, urn ∈ hidden ↔ urn ∈ found ∨
        (∃ node ∈ nodes, node.urn = urn) ∧ hides rounds parents locallyCollapsed urn = some true := by
  induction nodes generalizing found with
  | nil =>
      cases collected
      exact ⟨nofun, by simp⟩
  | cons node rest ih =>
      rw [List.foldlM_cons, hide, Option.bind_eq_bind] at collected
      obtain ⟨next, step, collected⟩ := Option.bind_eq_some_iff.mp collected
      obtain ⟨isHidden, walked, rfl⟩ := Option.map_eq_some_iff.mp step
      obtain ⟨walks, members⟩ := ih collected
      refine ⟨List.forall_mem_cons.mpr ⟨⟨isHidden, walked⟩, walks⟩, ?_⟩
      intro urn
      rw [members urn]
      cases isHidden with
      | false =>
          have other (same : node.urn = urn) :
              hides rounds parents locallyCollapsed urn ≠ some true := by
            rw [← same, walked]
            nofun
          simp only [Bool.false_eq_true, if_false, List.mem_cons, exists_eq_or_imp]
          tauto
      | true =>
          have here (same : node.urn = urn) :
              hides rounds parents locallyCollapsed urn = some true := same ▸ walked
          simp only [if_true, Finset.mem_insert, List.mem_cons, exists_eq_or_imp,
            @eq_comm _ urn node.urn]
          tauto

theorem exists_foldlM_hide
    (walks : ∀ node ∈ nodes, ∃ isHidden,
      hides rounds parents locallyCollapsed node.urn = some isHidden) :
    ∃ hidden, nodes.foldlM (hide rounds parents locallyCollapsed) found = some hidden := by
  induction nodes generalizing found with
  | nil => exact ⟨found, rfl⟩
  | cons node rest ih =>
      obtain ⟨⟨isHidden, walked⟩, later⟩ := List.forall_mem_cons.mp walks
      rw [List.foldlM_cons, hide, walked]
      exact ih later

variable (result : TraceResultV2 Content) (locallyCollapsed : Finset String)

/-- The function ends with the nodes that are not collapsed and below one that is. -/
def HidesBelow : Prop :=
  ∃ rounds hidden, buildHiddenUrns ends rounds (some result) locallyCollapsed = some hidden ∧
    ∀ urn, urn ∈ hidden ↔ (∃ node ∈ result.data.nodes, node.urn = urn) ∧ urn ∉ locallyCollapsed ∧
      ∃ above ∈ locallyCollapsed,
        Relation.TransGen (Contained (containmentPairs ends result.data.edges)) urn above

/-- The last parents lead to one that is collapsed, or they end and no parents do. -/
def LedByLast (pairs : List (String × String)) (urn : String) : Prop :=
  (∃ above ∈ locallyCollapsed, Relation.TransGen (Above (lastParent pairs)) urn above) ∨
    Straight (lastParent pairs) urn ∧
      ∀ above ∈ locallyCollapsed, ¬ Relation.TransGen (Contained pairs) urn above

variable {ends result locallyCollapsed}

theorem contained_of_above (path : Relation.TransGen (Above (lastParent pairs)) child above) :
    Relation.TransGen (Contained pairs) child above :=
  Relation.TransGen.mono (fun _ _ => contained_of_lastParent) _ _ path

/-- Where the function ends with the right nodes, each walk was led by last parents. -/
theorem HidesBelow.led (exact' : HidesBelow ends result locallyCollapsed)
    (some' : locallyCollapsed ≠ ∅) {node : GraphNode Content} (member : node ∈ result.data.nodes)
    (shown : node.urn ∉ locallyCollapsed) :
    LedByLast locallyCollapsed (containmentPairs ends result.data.edges) node.urn := by
  obtain ⟨rounds, hidden, collected, exact'⟩ := exact'
  simp only [buildHiddenUrns, if_neg some'] at collected
  obtain ⟨walks, members⟩ := mem_of_foldlM_hide collected
  obtain ⟨isHidden, walked⟩ := walks node member
  cases isHidden with
  | true =>
      obtain ⟨_, below⟩ := hides_true walked
      rw [parentIn_lastParents] at below
      exact .inl below
  | false =>
      obtain ⟨straight, _⟩ := (hides_false walked).resolve_left shown
      rw [parentIn_lastParents] at straight
      refine .inr ⟨straight, ?_⟩
      intro above collapsed path
      have isHidden := (exact' node.urn).mpr ⟨⟨node, member, rfl⟩, shown, above, collapsed, path⟩
      rcases (members node.urn).mp isHidden with absent | ⟨_, walked'⟩
      · exact Finset.notMem_empty _ absent
      · rw [walked] at walked'
        cases walked'

theorem LedByLast.hides_iff {isHidden : Bool} (led : LedByLast locallyCollapsed pairs urn)
    (walked : hides rounds (lastParents pairs) locallyCollapsed urn = some isHidden)
    (shown : urn ∉ locallyCollapsed) :
    isHidden = true ↔
      ∃ above ∈ locallyCollapsed, Relation.TransGen (Contained pairs) urn above := by
  cases isHidden with
  | true =>
      obtain ⟨_, above, collapsed, path⟩ := hides_true walked
      rw [parentIn_lastParents] at path
      exact iff_of_true rfl ⟨above, collapsed, contained_of_above path⟩
  | false =>
      obtain ⟨_, clear⟩ := (hides_false walked).resolve_left shown
      rw [parentIn_lastParents] at clear
      refine iff_of_false Bool.false_ne_true ?_
      rintro ⟨above, collapsed, path⟩
      rcases led with ⟨other, collapsed', path'⟩ | ⟨_, apart⟩
      · exact clear other collapsed' path'
      · exact apart above collapsed path

theorem hidesBelow_of_led (some' : locallyCollapsed ≠ ∅)
    (led : ∀ node ∈ result.data.nodes, node.urn ∉ locallyCollapsed →
      LedByLast locallyCollapsed (containmentPairs ends result.data.edges) node.urn) :
    HidesBelow ends result locallyCollapsed := by
  let pairs := containmentPairs ends result.data.edges
  have walks : ∀ node ∈ result.data.nodes, ∃ isHidden,
      hides ((lastParents pairs).entries.length + 1) (lastParents pairs) locallyCollapsed node.urn =
        some isHidden := by
    intro node member
    apply exists_hides
    rw [parentIn_lastParents]
    by_cases collapsed : node.urn ∈ locallyCollapsed
    · exact .inl collapsed
    · exact .inr ((led node member collapsed).symm.imp_left And.left)
  obtain ⟨hidden, collected⟩ := exists_foldlM_hide walks
  refine ⟨_, hidden, by rw [buildHiddenUrns, if_neg some', collected], ?_⟩
  intro urn
  rw [(mem_of_foldlM_hide collected).2 urn]
  simp only [Finset.notMem_empty, false_or]
  refine and_congr_right ?_
  rintro ⟨node, member, rfl⟩
  obtain ⟨isHidden, walked⟩ := walks node member
  constructor
  · intro walked'
    have shown := (hides_true walked').1
    exact ⟨shown, ((led node member shown).hides_iff walked' shown).mp rfl⟩
  · rintro ⟨shown, below⟩
    have isTrue := ((led node member shown).hides_iff walked shown).mpr below
    exact isTrue ▸ walked

/-- The function is exact just where last parents lead each node that is not collapsed rightly,
or nothing is collapsed. -/
theorem buildHiddenUrns_exact_iff :
    HidesBelow ends result locallyCollapsed ↔
      locallyCollapsed = ∅ ∨ ∀ node ∈ result.data.nodes, node.urn ∉ locallyCollapsed →
        LedByLast locallyCollapsed (containmentPairs ends result.data.edges) node.urn := by
  by_cases nothing : locallyCollapsed = ∅
  · refine iff_of_true ⟨0, ∅, by rw [buildHiddenUrns, if_pos nothing], ?_⟩ (.inl nothing)
    intro urn
    simp [nothing]
  · constructor
    · intro exact'
      exact .inr fun node member shown => exact'.led nothing member shown
    · intro led
      exact hidesBelow_of_led nothing (led.resolve_left nothing)

/-- Two nodes that contain each other, and a third that is collapsed. -/
def mutualContainment : TraceResultV2 EdgeEnds where
  data := {
    nodes := [⟨"a", ⟨"", "", false⟩⟩, ⟨"c", ⟨"", "", false⟩⟩]
    edges := [⟨"e1", ⟨"b", "a", true⟩⟩, ⟨"e2", ⟨"a", "b", true⟩⟩]
    aggregatedChildCount := .empty
    expandableUrns := []
    content := ⟨"", "", false⟩ }
  traceMeta := ⟨none, ⟨"", "", false⟩⟩

/-- The walk up from the first goes around and does not end. -/
theorem mutualContainment_endless : ¬ HidesBelow id mutualContainment {"c"} := by
  rintro ⟨rounds, hidden, collected, _⟩
  have around : climb (parentIn (lastParents (containmentPairs id mutualContainment.data.edges)))
      (fun cursor => if cursor ∈ ({"c"} : Finset String) then some cursor else none) rounds "a" =
        none ∧
      climb (parentIn (lastParents (containmentPairs id mutualContainment.data.edges)))
        (fun cursor => if cursor ∈ ({"c"} : Finset String) then some cursor else none) rounds "b" =
          none := by
    clear collected
    induction rounds with
    | zero => exact ⟨rfl, rfl⟩
    | succ rounds ih => exact ⟨ih.2, ih.1⟩
  have walked : hides rounds (lastParents (containmentPairs id mutualContainment.data.edges)) {"c"}
      "a" = none := by
    rw [hides, if_neg (by decide), around.1]
    rfl
  obtain ⟨isHidden, walked'⟩ := (mem_of_foldlM_hide collected).1 _ List.mem_cons_self
  rw [walked] at walked'
  cases walked'

end Univiz.TraceStore
