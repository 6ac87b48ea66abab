import Univiz.Resolver.ContainmentCycle

namespace Univiz.Resolver

open Univiz.Data

/-! What the search for a containment cycle finds, and what it reports. -/

variable {graph : ContainmentGraph} {search after : Search} {stack below : List String}
  {node neighbor other : String} {fuel : Nat}

namespace ContainmentGraph

/-- An edge between two nodes; a node that contains itself does not count. -/
def Step (graph : ContainmentGraph) (node neighbor : String) : Prop :=
  node ≠ neighbor ∧ graph.Edge node neighbor

def HasCycle (graph : ContainmentGraph) : Prop := ∃ walk, IsCycle graph.Edge walk

theorem mem_keys_of_edge (edge : graph.Edge node neighbor) :
    node ∈ graph.entries.map Prod.fst := by
  cases found : graph.get node with
  | none => simp [Edge, neighbors, found] at edge
  | some list => exact List.mem_map_of_mem (OrderedMap.get_eq_some.mp found)

theorem mem_names_of_edge (edge : graph.Edge node neighbor) : neighbor ∈ graph.names := by
  cases found : graph.get node with
  | none => simp [Edge, neighbors, found] at edge
  | some list =>
      rw [Edge, neighbors, found, Option.getD_some] at edge
      exact List.mem_append_right _
        (List.mem_flatMap.mpr ⟨_, OrderedMap.get_eq_some.mp found, edge⟩)

end ContainmentGraph

namespace Search

def blacks (search : Search) : Set String := {node | search.color.get node = some .black}

theorem get_color_paint (search : Search) (node other : String) (color : Color) :
    (search.paint node color).color.get other =
      if node = other then some color else search.color.get other := OrderedMap.get_set

theorem blacks_paint {color : Color} (light : color ≠ .black) (fresh : node ∉ search.blacks) :
    (search.paint node color).blacks = search.blacks := by
  ext other
  rw [blacks, Set.mem_ofPred_eq, get_color_paint]
  by_cases here : node = other
  · subst here
    simpa [light] using fresh
  · rw [if_neg here]
    rfl

theorem blacks_paint_black : (search.paint node .black).blacks = insert node search.blacks := by
  ext other
  rw [blacks, Set.mem_ofPred_eq, get_color_paint, Set.mem_insert_iff]
  by_cases here : node = other
  · simp [here]
  · have apart : ¬ other = node := fun same => here same.symm
    simp [here, apart, blacks]

/-- Each node of the stack has the one below as its parent, and the lowest has none. -/
def Rooted (search : Search) : List String → Prop
  | [] => True
  | node :: rest => (search.parent.get node).join = rest.head? ∧ search.Rooted rest

theorem Rooted.of_same (rooted : search.Rooted stack)
    (same : ∀ node ∈ stack, after.parent.get node = search.parent.get node) :
    after.Rooted stack := by
  induction stack with
  | nil => trivial
  | cons node rest ih =>
      refine ⟨?_, ih rooted.2 fun other member => same other (List.mem_cons_of_mem node member)⟩
      rw [same node List.mem_cons_self]
      exact rooted.1

/-- The walk upwards ends, and never at the child of what it looks for. -/
theorem Rooted.climb (rooted : search.Rooted (node :: below)) (enough : below.length < fuel)
    (apart : node ≠ neighbor) :
    ∃ above, search.climb neighbor fuel node = some above ∧
      (node :: above).getLast? ≠ some neighbor := by
  induction below generalizing node fuel with
  | nil =>
      obtain ⟨fuel, rfl⟩ := Nat.exists_eq_succ_of_ne_zero (Nat.ne_of_gt enough)
      have top : (search.parent.get node).join = none := rooted.1
      exact ⟨[], by rw [Search.climb, top], by simpa using apart⟩
  | cons lower rest ih =>
      obtain ⟨fuel, rfl⟩ := Nat.exists_eq_succ_of_ne_zero (Nat.ne_of_gt (Nat.zero_lt_of_lt enough))
      have up : (search.parent.get node).join = some lower := rooted.1
      rw [Search.climb, up]
      by_cases stops : lower = "" ∨ lower = neighbor
      · exact ⟨[], by simp only [if_pos stops], by simpa using apart⟩
      · obtain ⟨above, climbed, last⟩ := ih rooted.2 (Nat.lt_of_succ_lt_succ enough)
          fun same => stops (.inr same)
        refine ⟨lower :: above, ?_, ?_⟩
        · simp only [if_neg stops, climbed, Option.map_some]
        · rwa [List.getLast?_cons_cons]

/-- The path begins elsewhere than it ends. -/
theorem Rooted.rebuild (graph : ContainmentGraph) (rooted : search.Rooted (node :: below))
    (enough : below.length < fuel) (apart : node ≠ neighbor) :
    ∃ path, search.rebuild fuel node neighbor = some path ∧ ¬ IsCycle graph.Edge path := by
  obtain ⟨above, climbed, last⟩ := rooted.climb enough apart
  refine ⟨_, by rw [Search.rebuild, climbed, Option.map_some], ?_⟩
  intro cycle
  have closed := cycle.closed
  have first : ((neighbor :: node :: above).reverse ++ [neighbor]).head? =
      (node :: above).getLast? := by
    rw [List.reverse_cons, List.append_assoc, List.head?_append_of_ne_nil _ (by simp),
      List.head?_reverse]
  rw [first, List.getLast?_concat] at closed
  exact last closed

end Search

/-- The search while the nodes of a stack are being visited, the innermost first. -/
structure Visiting (graph : ContainmentGraph) (search : Search) (stack : List String) : Prop where
  gray_iff : ∀ node, search.color.get node = some .gray ↔ node ∈ stack
  stacked : IsStack graph.Edge stack
  named : stack ⊆ graph.names
  settled : Settled graph.Step search.blacks
  rooted : search.Rooted stack
  orphaned : ∀ node, search.color.get node = some .white → (search.parent.get node).join = none
  known : ∀ node ∈ graph.entries.map Prod.fst, search.color.get node ≠ none

namespace Visiting

theorem length_le (visiting : Visiting graph search stack) : stack.length ≤ graph.names.length :=
  (List.subperm_of_subset visiting.stacked.distinct visiting.named).length_le

/-- A color takes the place of another or none. -/
theorem known_paint (visiting : Visiting graph search stack) (node : String) (color : Color) :
    ∀ other ∈ graph.entries.map Prod.fst, (search.paint node color).color.get other ≠ none := by
  intro other key
  rw [Search.get_color_paint]
  split
  · exact Option.some_ne_none color
  · exact visiting.known other key

theorem discover (visiting : Visiting graph search stack) (neighbor : String) :
    Visiting graph (search.discover neighbor) stack ∧
      (search.discover neighbor).blacks = search.blacks ∧
      (search.discover neighbor).color.get neighbor ≠ none := by
  rw [Search.discover]
  split
  · rename_i seen
    exact ⟨visiting, rfl, Option.isSome_iff_ne_none.mp seen⟩
  · rename_i unseen
    have absent : search.color.get neighbor = none := by simpa using unseen
    have painted (node : String) : (search.color.set neighbor .white).get node =
        if neighbor = node then some .white else search.color.get node := OrderedMap.get_set
    have parent (node : String) : (search.parent.set neighbor none).get node =
        if neighbor = node then some none else search.parent.get node := OrderedMap.get_set
    have blacks : (search.paint neighbor .white).blacks = search.blacks :=
      Search.blacks_paint (by simp) (by simp [Search.blacks, absent])
    refine ⟨?_, blacks, by simp [painted]⟩
    constructor
    · intro node
      rw [← visiting.gray_iff node, painted]
      by_cases here : neighbor = node
      · subst here
        simp [absent]
      · simp [here]
    · exact visiting.stacked
    · exact visiting.named
    · exact blacks ▸ visiting.settled
    · apply visiting.rooted.of_same
      intro node member
      have gray := (visiting.gray_iff node).mpr member
      have apart : neighbor ≠ node := by
        rintro rfl
        rw [absent] at gray
        cases gray
      rw [parent, if_neg apart]
    · intro node white
      rw [parent]
      by_cases here : neighbor = node
      · simp [here]
      · rw [if_neg here]
        rw [painted, if_neg here] at white
        exact visiting.orphaned node white
    · exact visiting.known_paint neighbor .white

/-- A white node is entered from the top of the stack. -/
theorem enter (visiting : Visiting graph search stack)
    (parent : OrderedMap String (Option String)) (white : search.color.get node = some .white)
    (stacked : IsStack graph.Edge (node :: stack)) (named : node ∈ graph.names)
    (onto : (parent.get node).join = stack.head?)
    (same : ∀ other, other ≠ node → parent.get other = search.parent.get other) :
    Visiting graph ⟨search.color.set node .gray, parent⟩ (node :: stack) ∧
      Search.blacks ⟨search.color.set node .gray, parent⟩ = search.blacks := by
  have painted (other : String) : (search.color.set node .gray).get other =
      if node = other then some .gray else search.color.get other := OrderedMap.get_set
  have blacks : (search.paint node .gray).blacks = search.blacks :=
    Search.blacks_paint (by simp) (by simp [Search.blacks, white])
  have absent := (List.nodup_cons.mp stacked.distinct).1
  refine ⟨?_, blacks⟩
  constructor
  · intro other
    rw [List.mem_cons, ← visiting.gray_iff other, painted]
    by_cases here : node = other
    · simp [here]
    · have apart : ¬ other = node := fun equal => here equal.symm
      simp [here, apart]
  · exact stacked
  · exact List.cons_subset.mpr ⟨named, visiting.named⟩
  · exact blacks ▸ visiting.settled
  · refine ⟨onto, visiting.rooted.of_same ?_⟩
    intro other member
    exact same other fun equal => absent (equal ▸ member)
  · intro other light
    rw [painted] at light
    by_cases here : node = other
    · rw [if_pos here] at light
      cases light
    · rw [if_neg here] at light
      rw [same other fun equal => here equal.symm]
      exact visiting.orphaned other light
  · exact visiting.known_paint node .gray

/-- The visit of a node is over once the nodes it leads to are black. -/
theorem leave (visiting : Visiting graph search (node :: stack))
    (done : ∀ next, graph.Step node next → next ∈ search.blacks) :
    Visiting graph (search.paint node .black) stack := by
  have painted (other : String) := search.get_color_paint node other .black
  have absent := (List.nodup_cons.mp visiting.stacked.distinct).1
  have gray : search.color.get node = some .gray :=
    (visiting.gray_iff node).mpr List.mem_cons_self
  constructor
  · intro other
    rw [painted]
    by_cases here : node = other
    · subst here
      simp [absent]
    · have apart : ¬ other = node := fun equal => here equal.symm
      rw [if_neg here, visiting.gray_iff, List.mem_cons]
      simp [apart]
  · exact ⟨visiting.stacked.linked.tail, visiting.stacked.distinct.tail⟩
  · exact fun other member => visiting.named (List.mem_cons_of_mem node member)
  · rw [Search.blacks_paint_black]
    exact visiting.settled.insert (by simp [Search.blacks, gray]) done
  · exact visiting.rooted.2.of_same fun _ _ => rfl
  · intro other white
    rw [painted] at white
    by_cases here : node = other
    · rw [if_pos here] at white
      cases white
    · rw [if_neg here] at white
      exact visiting.orphaned other white
  · exact visiting.known_paint node .black

/-- A grey neighbor closes a cycle, which the reported path is not. -/
theorem found (visiting : Visiting graph search (node :: below)) (apart : neighbor ≠ node)
    (edge : graph.Edge node neighbor) (gray : search.color.get neighbor = some .gray) :
    ∃ path, search.rebuild (searchFuel graph) node neighbor = some path ∧
      ¬ IsCycle graph.Edge path ∧ graph.HasCycle := by
  have member := (visiting.gray_iff neighbor).mp gray
  have inside := (List.mem_cons.mp member).resolve_left apart
  have enough : below.length < searchFuel graph := by
    have bound := visiting.length_le
    rw [List.length_cons] at bound
    rw [searchFuel]
    omega
  obtain ⟨path, rebuilt, misses⟩ := visiting.rooted.rebuild graph enough fun same => apart same.symm
  exact ⟨path, rebuilt, misses, visiting.stacked.cycle edge inside⟩

/-- The step down to a white neighbor. -/
theorem descend (visiting : Visiting graph search (node :: below))
    (edge : graph.Edge node neighbor) (white : search.color.get neighbor = some .white) :
    Visiting graph ((search.setParent neighbor node).paint neighbor .gray)
        (neighbor :: node :: below) ∧
      ((search.setParent neighbor node).paint neighbor .gray).blacks = search.blacks := by
  have fresh : neighbor ∉ node :: below := by
    intro member
    have gray := (visiting.gray_iff neighbor).mpr member
    rw [white] at gray
    cases gray
  apply visiting.enter (search.parent.set neighbor (some node)) white
    (visiting.stacked.push fresh edge) (ContainmentGraph.mem_names_of_edge edge)
  · rw [OrderedMap.get_set, if_pos rfl]
    rfl
  · intro other apart
    rw [OrderedMap.get_set, if_neg fun equal => apart equal.symm]

end Visiting

/-- What a search that has come this far ends in: a path that is no cycle, in a graph that has
one, or the same stack with the goal reached and no black node lost. -/
def Ends (graph : ContainmentGraph) (stack : List String) (search : Search)
    (goal : Search → Prop) : Visit → Prop
  | none => False
  | some (_, some path) => ¬ IsCycle graph.Edge path ∧ graph.HasCycle
  | some (after, none) =>
      Visiting graph after stack ∧ search.blacks ⊆ after.blacks ∧ goal after

theorem Ends.imp {before : Search} {goal target : Search → Prop} {visit : Visit}
    (ends : Ends graph stack search goal visit) (fewer : before.blacks ⊆ search.blacks)
    (reach : ∀ after, search.blacks ⊆ after.blacks → goal after → target after) :
    Ends graph stack before target visit := by
  match visit, ends with
  | some (_, some _), found => exact found
  | some (after, none), ⟨visiting, kept, reached⟩ =>
      exact ⟨visiting, fewer.trans kept, reach after kept reached⟩

theorem scan_ends (visit : Search → String → Visit) (neighbors : List String)
    (visits : ∀ before neighbor,
      Visiting graph (before.paint neighbor .gray) (neighbor :: node :: below) →
        Ends graph (node :: below) (before.paint neighbor .gray)
          (fun after => neighbor ∈ after.blacks) (visit before neighbor))
    (edges : ∀ neighbor ∈ neighbors, graph.Edge node neighbor)
    (visiting : Visiting graph search (node :: below)) :
    Ends graph (node :: below) search
      (fun after => ∀ neighbor ∈ neighbors, node ≠ neighbor → neighbor ∈ after.blacks)
      (scan graph visit node neighbors search) := by
  induction neighbors generalizing search with
  | nil => exact ⟨visiting, Set.Subset.rfl, by simp⟩
  | cons neighbor rest ih =>
      have edge := edges neighbor List.mem_cons_self
      have later : ∀ other ∈ rest, graph.Edge node other :=
        fun other member => edges other (List.mem_cons_of_mem neighbor member)
      rw [scan]
      by_cases self : neighbor = node
      · rw [if_pos self]
        apply (ih later visiting).imp Set.Subset.rfl
        intro after _ reached
        rw [List.forall_mem_cons]
        exact ⟨fun apart => absurd self.symm apart, reached⟩
      rw [if_neg self]
      obtain ⟨discovered, blacks, colored⟩ := visiting.discover neighbor
      -- The rest of the scan, from a search in which this neighbor is black.
      have onward {next : Search} (visiting : Visiting graph next (node :: below))
          (more : search.blacks ⊆ next.blacks) (black : neighbor ∈ next.blacks) :
          Ends graph (node :: below) search
            (fun after => ∀ other ∈ neighbor :: rest, node ≠ other → other ∈ after.blacks)
            (scan graph visit node rest next) := by
        apply (ih later visiting).imp more
        intro after kept reached
        rw [List.forall_mem_cons]
        exact ⟨fun _ => kept black, reached⟩
      cases color : (search.discover neighbor).color.get neighbor with
      | none => exact absurd color colored
      | some shade =>
          cases shade with
          | gray =>
              obtain ⟨path, rebuilt, answer⟩ := discovered.found self edge color
              simp only [color, rebuilt, Option.map_some]
              exact answer
          | white =>
              obtain ⟨entered, same⟩ := discovered.descend edge color
              have ends := visits _ neighbor entered
              simp only [color]
              cases visited :
                visit ((search.discover neighbor).setParent neighbor node) neighbor with
              | none =>
                  rw [visited] at ends
                  exact ends.elim
              | some outcome =>
                  rw [visited] at ends
                  obtain ⟨next, _ | path⟩ := outcome
                  · obtain ⟨resumed, kept, black⟩ := ends
                    exact onward resumed ((blacks.symm.trans same.symm).subset.trans kept) black
                  · exact ends
          | black =>
              simp only [color]
              exact onward discovered blacks.symm.subset color

theorem dfs_ends (enough : graph.names.length < fuel + stack.length)
    (visiting : Visiting graph (search.paint node .gray) (node :: stack)) :
    Ends graph stack (search.paint node .gray) (fun after => node ∈ after.blacks)
      (dfs graph fuel search node) := by
  induction fuel generalizing search node stack with
  | zero =>
      have bound := visiting.length_le
      rw [List.length_cons] at bound
      omega
  | succ fuel ih =>
      have scanned := scan_ends (dfs graph fuel) (graph.neighbors node)
        (fun before neighbor visiting => ih (by rw [List.length_cons]; omega) visiting)
        (fun _ edge => edge) visiting
      rw [dfs]
      cases outcome : scan graph (dfs graph fuel) node (graph.neighbors node)
          (search.paint node .gray) with
      | none =>
          rw [outcome] at scanned
          exact scanned.elim
      | some result =>
          rw [outcome] at scanned
          obtain ⟨next, _ | path⟩ := result
          · obtain ⟨visited, kept, reached⟩ := scanned
            have left := visited.leave fun next step => reached next step.2 step.1
            have black : (next.paint node .black).blacks = insert node next.blacks :=
              Search.blacks_paint_black
            exact ⟨left, kept.trans (black ▸ Set.subset_insert _ _),
              black.symm.subset (Set.mem_insert _ _)⟩
          · exact scanned

/-- What the search over a list of nodes answers. -/
def Answers (graph : ContainmentGraph) (nodes : List String) (search : Search) :
    Option (Option (List String)) → Prop
  | none => False
  | some (some path) => ¬ IsCycle graph.Edge path ∧ graph.HasCycle
  | some none =>
      ∃ after, Visiting graph after [] ∧ search.blacks ⊆ after.blacks ∧
        ∀ node ∈ nodes, node ∈ after.blacks

theorem Answers.cons {nodes : List String} {next : Search} {answer : Option (Option (List String))}
    (answers : Answers graph nodes next answer) (more : search.blacks ⊆ next.blacks)
    (black : node ∈ next.blacks) : Answers graph (node :: nodes) search answer := by
  match answer, answers with
  | some (some _), found => exact found
  | some none, ⟨after, visiting, kept, reached⟩ =>
      exact ⟨after, visiting, more.trans kept, List.forall_mem_cons.mpr ⟨kept black, reached⟩⟩

theorem dfsFrom_answers {nodes : List String} (keys : nodes ⊆ graph.entries.map Prod.fst)
    (visiting : Visiting graph search []) :
    Answers graph nodes search (dfsFrom graph nodes search) := by
  induction nodes generalizing search with
  | nil => exact ⟨search, visiting, Set.Subset.rfl, by simp⟩
  | cons node rest ih =>
      obtain ⟨key, others⟩ := List.cons_subset.mp keys
      rw [dfsFrom]
      split
      · rename_i white
        have named : node ∈ graph.names := List.mem_append_left _ key
        have alone : IsStack graph.Edge [node] := ⟨.singleton node, List.nodup_singleton node⟩
        obtain ⟨entered, same⟩ := visiting.enter search.parent white alone named
          (visiting.orphaned node white) fun _ _ => rfl
        have ends : Ends graph [] (search.paint node .gray) (fun after => node ∈ after.blacks)
            (dfs graph (searchFuel graph) search node) := by
          apply dfs_ends _ entered
          rw [searchFuel]
          omega
        cases outcome : dfs graph (searchFuel graph) search node with
        | none =>
            rw [outcome] at ends
            exact ends.elim
        | some result =>
            rw [outcome] at ends
            obtain ⟨next, _ | path⟩ := result
            · obtain ⟨visited, kept, black⟩ := ends
              exact (ih others visited).cons (same.symm.subset.trans kept) black
            · exact ends
      · rename_i colored
        have black : node ∈ search.blacks := by
          have known := visiting.known node key
          have gray := visiting.gray_iff node
          cases color : search.color.get node with
          | none => exact absurd color known
          | some shade =>
              cases shade with
              | white => exact absurd color colored
              | gray => exact absurd (gray.mp color) List.not_mem_nil
              | black => exact color
        exact (ih others visiting).cons Set.Subset.rfl black

theorem start_visiting (graph : ContainmentGraph) : Visiting graph (Search.start graph) [] := by
  have color (node : String) : (Search.start graph).color.get node =
      (graph.get node).map fun _ => .white := OrderedMap.get_mapValues
  have parent (node : String) : (Search.start graph).parent.get node =
      (graph.get node).map fun _ => none := OrderedMap.get_mapValues
  have light : (Search.start graph).blacks = ∅ := by
    ext node
    rw [Search.blacks, Set.mem_ofPred_eq, color]
    cases graph.get node <;> simp
  constructor
  · intro node
    rw [color]
    cases graph.get node <;> simp
  · exact .nil
  · exact List.nil_subset _
  · rw [light]
    exact .empty
  · trivial
  · intro node _
    rw [parent]
    cases graph.get node <;> rfl
  · intro node key
    obtain ⟨entry, member, rfl⟩ := List.mem_map.mp key
    rw [color, OrderedMap.get_eq_some.mpr member]
    simp

theorem Visiting.acyclic (visiting : Visiting graph search stack)
    (done : ∀ node ∈ graph.entries.map Prod.fst, node ∈ search.blacks) : ¬ graph.HasCycle := by
  rintro ⟨walk, cycle⟩
  obtain ⟨node, loop⟩ := cycle.exists_loop
  obtain ⟨next, step, _⟩ := Relation.TransGen.head'_iff.mp loop
  have key := ContainmentGraph.mem_keys_of_edge step.2
  exact visiting.settled.loopless node (done node key) loop

/-- The search ends.  It finds something just if there is a cycle, and what it then reports is
none. -/
theorem findContainmentCycle_found (graph : ContainmentGraph) :
    ∃ found, findContainmentCycle graph = some found ∧ (found = none ↔ ¬ graph.HasCycle) ∧
      ∀ path, found = some path → ¬ IsCycle graph.Edge path := by
  have answers := dfsFrom_answers (List.Subset.refl _) (start_visiting graph)
  rw [findContainmentCycle]
  cases answer : dfsFrom graph (graph.entries.map Prod.fst) (Search.start graph) with
  | none =>
      rw [answer] at answers
      exact answers.elim
  | some found =>
      rw [answer] at answers
      cases found with
      | none =>
          obtain ⟨after, visiting, _, done⟩ := answers
          exact ⟨none, rfl, iff_of_true rfl (visiting.acyclic done), by rintro _ ⟨⟩⟩
      | some path =>
          obtain ⟨misses, cyclic⟩ := answers
          refine ⟨some path, rfl, iff_of_false (Option.some_ne_none path) (not_not_intro cyclic), ?_⟩
          rintro _ ⟨⟩
          exact misses

theorem validateOntology_reports_cycle {entityDefs : EntityDefs}
    {relationshipDefs : RelationshipDefs} :
    ∃ issues, validateOntology entityDefs relationshipDefs = some issues ∧
      ((∃ issue ∈ issues, issue.code = .containmentCycle) ↔
        (containmentGraph entityDefs).HasCycle) := by
  obtain ⟨found, answer, none_iff, _⟩ := findContainmentCycle_found (containmentGraph entityDefs)
  have others : ∀ issue ∈ missingNames entityDefs relationshipDefs ++
      unknownTypes entityDefs relationshipDefs, issue.code ≠ .containmentCycle := by
    intro issue member
    simp only [missingNames, unknownTypes, unknownIn, List.mem_append, List.mem_map,
      List.mem_flatMap] at member
    obtain (⟨_, _, rfl⟩ | ⟨_, _, rfl⟩) | ⟨_, _, ⟨_, _, rfl⟩ | ⟨_, _, rfl⟩⟩ := member <;>
      exact IssueCode.noConfusion
  refine ⟨_, by rw [validateOntology, answer, Option.map_some], ?_⟩
  cases found with
  | none =>
      have acyclic := none_iff.mp rfl
      simp only [Option.toList_none, List.map_nil, List.append_nil]
      refine iff_of_false ?_ acyclic
      intro reported
      obtain ⟨issue, member, code⟩ := reported
      exact others issue member code
  | some path =>
      have cyclic : (containmentGraph entityDefs).HasCycle := by
        by_contra acyclic
        exact Option.some_ne_none path (none_iff.mpr acyclic)
      refine iff_of_true ⟨containmentCycle path, ?_, rfl⟩ cyclic
      simp

/-- The search reports no cycle where there is none, and otherwise a cycle. -/
def ReportsCycle (graph : ContainmentGraph) : Prop :=
  ∃ found, findContainmentCycle graph = some found ∧ (found = none ↔ ¬ graph.HasCycle) ∧
    ∀ path, found = some path → IsCycle graph.Edge path

theorem reportsCycle_iff (graph : ContainmentGraph) : ReportsCycle graph ↔ ¬ graph.HasCycle := by
  obtain ⟨found, answer, none_iff, misses⟩ := findContainmentCycle_found graph
  constructor
  · rintro ⟨reported, answered, reported_iff, shaped⟩
    obtain rfl : reported = found := Option.some.inj (answered.symm.trans answer)
    cases reported with
    | none => exact none_iff.mp rfl
    | some path => exact absurd (shaped path rfl) (misses path rfl)
  · intro acyclic
    refine ⟨found, answer, none_iff, ?_⟩
    intro path isPath
    rw [none_iff.mpr acyclic] at isPath
    cases isPath

/-- Two types that contain each other. -/
def mutualContainment : ContainmentGraph := (OrderedMap.empty.set "A" ["B"]).set "B" ["A"]

theorem mutual_not_reported : ¬ ReportsCycle mutualContainment := by
  rintro ⟨found, answer, _, shaped⟩
  have reported : findContainmentCycle mutualContainment = some (some ["B", "A", "A"]) := by decide
  obtain rfl : some ["B", "A", "A"] = found := Option.some.inj (reported.symm.trans answer)
  have closed := (shaped _ rfl).closed
  exact absurd closed (by decide)

end Univiz.Resolver
