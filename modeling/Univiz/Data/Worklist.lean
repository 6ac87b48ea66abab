import Mathlib.Data.Set.Finite.List
import Univiz.Data.Cycle
import Univiz.Data.OrderedMap

namespace Univiz.Data

/-! Searches with a bound on their rounds.

A worklist search takes a node from the front of its queue, drops it when it has visited
it before, and otherwise queues the successors.  A climb follows one parent after another
until something stops it; on a cycle nothing may. -/

variable {α β : Type}

section Worklists

variable [DecidableEq α]

/-- What the edges lead to from a node, in their order. -/
def successors (edges : List (α × α)) (node : α) : List α :=
  edges.filterMap fun edge => if edge.1 = node then some edge.2 else none

variable {edges : List (α × α)} {node other : α} {start queue visited found : List α} {fuel : Nat}

theorem mem_successors : other ∈ successors edges node ↔ (node, other) ∈ edges := by
  simp only [successors, List.mem_filterMap, Option.ite_none_right_eq_some, Option.some.injEq,
    Prod.exists]
  refine ⟨?_, ?_⟩
  · rintro ⟨source, target, member, rfl, rfl⟩
    exact member
  · intro member
    exact ⟨node, other, member, rfl, rfl⟩

/-- The edges of a map that has what each node leads to. -/
def edgesOf (map : OrderedMap α (List α)) : List (α × α) :=
  map.entries.flatMap fun entry => entry.2.map fun other => (entry.1, other)

theorem successors_edgesOf (map : OrderedMap α (List α)) :
    successors (edgesOf map) node = (map.get node).getD [] := by
  obtain ⟨entries, distinct⟩ := map
  simp only [edgesOf, OrderedMap.get]
  induction entries with
  | nil => rfl
  | cons entry rest ih =>
      obtain ⟨source, others⟩ := entry
      obtain ⟨fresh, distinct⟩ := List.nodup_cons.mp distinct
      have later := ih distinct
      simp only [successors] at later ⊢
      rw [List.flatMap_cons, List.filterMap_append, later, List.filterMap_map,
        OrderedMap.lookup]
      by_cases here : source = node
      · subst here
        simp only [OrderedMap.lookup_of_notMem fresh, Option.getD_none, List.append_nil,
          Function.comp_def, if_true, Option.getD_some, List.filterMap_some]
      · simp only [Function.comp_def, if_neg here, List.filterMap_none, List.nil_append]

/-- The visited nodes, in the order of their visits. -/
def traverse (next : α → List α) : Nat → List α → List α → List α
  | 0, _, visited => visited
  | _ + 1, [], visited => visited
  | fuel + 1, node :: queue, visited =>
      if node ∈ visited then traverse next fuel queue visited
      else traverse next fuel (queue ++ next node) (visited ++ [node])

/-- What is reached from the start, and nothing else, where every node that is not at the
start is there because of another. -/
structure Closure (next : α → List α) (start found : List α) : Prop where
  starts : start ⊆ found
  closed : ∀ node ∈ found, next node ⊆ found
  origin : ∀ node ∈ found, node ∈ start ∨ ∃ via ∈ found, node ∈ next via

/-- The edges out of nodes that are not visited yet. -/
def remaining (edges : List (α × α)) (visited : List α) : Nat :=
  (edges.filter fun edge => edge.1 ∉ visited).length

theorem remaining_visit (fresh : node ∉ visited) :
    (successors edges node).length + remaining edges (visited ++ [node]) =
      remaining edges visited := by
  induction edges with
  | nil => rfl
  | cons edge rest ih =>
      simp only [successors, remaining, List.mem_append, List.mem_singleton, not_or] at ih ⊢
      by_cases here : edge.1 = node
      · simp only [List.filterMap_cons, List.filter_cons, here, fresh]
        simp only [↓reduceIte, not_true_eq_false, and_false, decide_false, Bool.false_eq_true,
          not_false_eq_true, decide_true, List.length_cons]
        omega
      · simp only [List.filterMap_cons, List.filter_cons, here, ↓reduceIte, not_false_eq_true,
          and_true]
        split
        · simp only [List.length_cons]
          omega
        · exact ih

/-- What the search maintains. -/
structure Searching (next : α → List α) (start queue visited : List α) : Prop where
  covered : ∀ node ∈ start, node ∈ visited ∨ node ∈ queue
  closed : ∀ node ∈ visited, ∀ other ∈ next node, other ∈ visited ∨ other ∈ queue
  origin : ∀ node, node ∈ visited ∨ node ∈ queue → node ∈ start ∨ ∃ via ∈ visited, node ∈ next via

namespace Searching

variable {next : α → List α}

omit [DecidableEq α] in
theorem begin : Searching next start start [] where
  covered _ member := .inr member
  closed _ member := absurd member List.not_mem_nil
  origin _ member := .inl (member.resolve_left List.not_mem_nil)

omit [DecidableEq α] in
theorem drop (searching : Searching next start (node :: queue) visited) (known : node ∈ visited) :
    Searching next start queue visited where
  covered other member := by
    rcases searching.covered other member with old | queued
    · exact .inl old
    · rcases List.mem_cons.mp queued with rfl | later
      · exact .inl known
      · exact .inr later
  closed via member other follows := by
    rcases searching.closed via member other follows with old | queued
    · exact .inl old
    · rcases List.mem_cons.mp queued with rfl | later
      · exact .inl known
      · exact .inr later
  origin other member := searching.origin other (member.imp_right (List.mem_cons_of_mem node))

omit [DecidableEq α] in
theorem visit (searching : Searching next start (node :: queue) visited) :
    Searching next start (queue ++ next node) (visited ++ [node]) where
  covered other member := by
    rcases searching.covered other member with old | queued
    · exact .inl (List.mem_append_left _ old)
    · rcases List.mem_cons.mp queued with rfl | later
      · exact .inl List.mem_concat_self
      · exact .inr (List.mem_append_left _ later)
  closed via member other follows := by
    rcases List.mem_append.mp member with old | new
    · rcases searching.closed via old other follows with old | queued
      · exact .inl (List.mem_append_left _ old)
      · rcases List.mem_cons.mp queued with rfl | later
        · exact .inl List.mem_concat_self
        · exact .inr (List.mem_append_left _ later)
    · rw [List.mem_singleton.mp new] at follows
      exact .inr (List.mem_append_right _ follows)
  origin other member := by
    have before : (other ∈ visited ∨ other ∈ node :: queue) ∨ other ∈ next node := by
      simp only [List.mem_append, List.mem_cons, List.not_mem_nil, or_false] at member ⊢
      tauto
    rcases before with before | new
    · rcases searching.origin other before with initial | ⟨via, member, follows⟩
      · exact .inl initial
      · exact .inr ⟨via, List.mem_append_left _ member, follows⟩
    · exact .inr ⟨node, List.mem_concat_self, new⟩

omit [DecidableEq α] in
theorem finish (searching : Searching next start [] visited) : Closure next start visited where
  starts node member := (searching.covered node member).resolve_right List.not_mem_nil
  closed node member other follows :=
    (searching.closed node member other follows).resolve_right List.not_mem_nil
  origin node member := searching.origin node (.inl member)

theorem closure (searching : Searching (successors edges) start queue visited)
    (enough : queue.length + remaining edges visited ≤ fuel) :
    Closure (successors edges) start (traverse (successors edges) fuel queue visited) := by
  induction fuel generalizing queue visited with
  | zero =>
      have empty : queue = [] := List.length_eq_zero_iff.mp (by omega)
      subst empty
      exact searching.finish
  | succ fuel ih =>
      cases queue with
      | nil => exact searching.finish
      | cons node queue =>
          rw [List.length_cons] at enough
          simp only [traverse]
          split
          · rename_i known
            exact ih (searching.drop known) (by omega)
          · rename_i fresh
            have fewer :
                (successors edges node).length + remaining edges (visited ++ [node]) =
                  remaining edges visited :=
              remaining_visit fresh
            refine ih searching.visit ?_
            rw [List.length_append]
            omega

end Searching

/-- A search visits no node without an edge to it twice, so its rounds are bounded by the
edges. -/
theorem closure_traverse :
    Closure (successors edges) start
      (traverse (successors edges) (start.length + edges.length) start []) := by
  refine Searching.begin.closure (Nat.add_le_add_left ?_ _)
  exact List.length_filter_le _ edges

omit [DecidableEq α] in
/-- Following a closed list from its start never leaves it. -/
theorem Closure.mem_of_path {next : α → List α} (closure : Closure next start found)
    (member : node ∈ found) (path : Relation.ReflTransGen (fun via node => node ∈ next via) node other) :
    other ∈ found := by
  induction path with
  | refl => exact member
  | tail _ onto ih => exact closure.closed _ ih onto

/-- A search visits only what can be reached. -/
theorem mem_traverse {next : α → List α} (member : other ∈ traverse next fuel queue visited) :
    other ∈ visited ∨ ∃ root ∈ queue,
      Relation.ReflTransGen (fun via node => node ∈ next via) root other := by
  induction fuel generalizing queue visited with
  | zero => exact .inl member
  | succ fuel ih =>
      cases queue with
      | nil => exact .inl member
      | cons node queue =>
          rw [traverse] at member
          split at member
          · obtain old | ⟨root, queued, path⟩ := ih member
            · exact .inl old
            · exact .inr ⟨root, List.mem_cons_of_mem _ queued, path⟩
          · obtain old | ⟨root, queued, path⟩ := ih member
            · obtain old | here := List.mem_append.mp old
              · exact .inl old
              · exact .inr ⟨node, List.mem_cons_self, List.mem_singleton.mp here ▸ .refl⟩
            · obtain old | new := List.mem_append.mp queued
              · exact .inr ⟨root, List.mem_cons_of_mem _ old, path⟩
              · exact .inr ⟨node, List.mem_cons_self, .head new path⟩

/-- A search visits just what can be reached from its start. -/
theorem mem_traverse_iff :
    other ∈ traverse (successors edges) (start.length + edges.length) start [] ↔
      ∃ root ∈ start,
        Relation.ReflTransGen (fun via node => node ∈ successors edges via) root other := by
  have closure : Closure (successors edges) start
      (traverse (successors edges) (start.length + edges.length) start []) := closure_traverse
  constructor
  · intro member
    exact (mem_traverse member).resolve_left List.not_mem_nil
  · intro ⟨root, member, path⟩
    exact closure.mem_of_path (closure.starts member) path

end Worklists

/-- What stops the climb, nothing where it ends at a node without a parent, and no result
where the rounds do not suffice. -/
def climb (parent : α → Option α) (stop : α → Option β) : Nat → α → Option (Option β)
  | 0, _ => none
  | fuel + 1, node =>
      match parent node with
      | none => some none
      | some above =>
          match stop above with
          | some found => some (some found)
          | none => climb parent stop fuel above

def passed (parent : α → Option α) (stop : α → Option β) : Nat → α → List α
  | 0, _ => []
  | fuel + 1, node =>
      match parent node with
      | none => []
      | some above =>
          match stop above with
          | some _ => [node]
          | none => node :: passed parent stop fuel above

variable {parent : α → Option α} {stop : α → Option β} {result : Option β} {node other : α}
  {fuel : Nat}

theorem climb_of_mem_passed (member : other ∈ passed parent stop fuel node)
    (returned : climb parent stop fuel node = some result) :
    ∃ fewer ≤ fuel, climb parent stop fewer other = some result ∧
      passed parent stop fewer other ⊆ passed parent stop fuel node := by
  induction fuel generalizing node with
  | zero => cases member
  | succ fuel ih =>
      by_cases here : other = node
      · subst here
        exact ⟨fuel + 1, Nat.le_refl _, returned, List.Subset.refl _⟩
      · simp only [climb] at returned
        simp only [passed] at member
        cases climbs : parent node with
        | none =>
            simp only [climbs] at member
            cases member
        | some above =>
            simp only [climbs] at member returned
            cases free : stop above with
            | some found =>
                simp only [free] at member
                exact absurd (List.mem_singleton.mp member) here
            | none =>
                simp only [free] at member returned
                have grows :
                    passed parent stop fuel above ⊆ passed parent stop (fuel + 1) node := by
                  simp only [passed, climbs, free]
                  exact List.subset_cons_self node _
                have later := (List.mem_cons.mp member).resolve_left here
                obtain ⟨fewer, less, reached, inside⟩ := ih later returned
                exact ⟨fewer, Nat.le_succ_of_le less, reached, List.Subset.trans inside grows⟩

theorem exists_of_mem_passed (member : other ∈ passed parent stop fuel node) :
    ∃ above, parent other = some above := by
  induction fuel generalizing node with
  | zero => cases member
  | succ fuel ih =>
      simp only [passed] at member
      cases climbs : parent node with
      | none =>
          simp only [climbs] at member
          cases member
      | some above =>
          simp only [climbs] at member
          cases free : stop above with
          | some found =>
              simp only [free] at member
              exact ⟨above, List.mem_singleton.mp member ▸ climbs⟩
          | none =>
              simp only [free] at member
              rcases List.mem_cons.mp member with rfl | later
              · exact ⟨above, climbs⟩
              · exact ih later

theorem climb_of_passed [DecidableEq α] {keys : List α}
    (known : passed parent stop fuel node ⊆ keys)
    (returned : climb parent stop fuel node = some result) :
    climb parent stop (keys.length + 1) node = some result := by
  induction fuel using Nat.strongRecOn generalizing node keys with
  | ind fuel ih =>
      cases fuel with
      | zero => cases returned
      | succ fuel =>
          unfold climb at returned ⊢
          simp only [passed] at known
          cases climbs : parent node with
          | none =>
              simp only [climbs] at returned ⊢
              exact returned
          | some above =>
              simp only [climbs] at returned known ⊢
              cases free : stop above with
              | some found =>
                  simp only [free] at returned ⊢
                  exact returned
              | none =>
                  simp only [free] at returned known ⊢
                  have above_known := List.Subset.trans (List.subset_cons_self node _) known
                  by_cases again : node ∈ passed parent stop fuel above
                  · obtain ⟨fewer, less, reached, inside⟩ := climb_of_mem_passed again returned
                    have around := ih fewer (Nat.lt_succ_of_le less)
                      (List.Subset.trans inside above_known) reached
                    simp only [climb] at around
                    simpa only [climbs, free] using around
                  · have inside : node ∈ keys := known List.mem_cons_self
                    have rest : passed parent stop fuel above ⊆ keys.erase node := by
                      intro other member
                      refine (List.mem_erase_of_ne ?_).mpr (known (List.mem_cons_of_mem _ member))
                      rintro rfl
                      exact again member
                    have shorter := ih fuel (Nat.lt_succ_self fuel) rest returned
                    rw [List.length_erase_of_mem inside] at shorter
                    have positive := List.length_pos_of_mem inside
                    rwa [Nat.sub_add_cancel positive] at shorter

/-- A climb that ends passes no node twice, so one round more than there are nodes with a
parent is enough. -/
theorem climb_of_keys [DecidableEq α] {keys : List α}
    (known : ∀ node above, parent node = some above → node ∈ keys)
    (returned : climb parent stop fuel node = some result) :
    climb parent stop (keys.length + 1) node = some result := by
  refine climb_of_passed ?_ returned
  intro other member
  obtain ⟨above, climbs⟩ := exists_of_mem_passed member
  exact known other above climbs

/-- The next node of a climb. -/
def Above (parent : α → Option α) (node above : α) : Prop := parent node = some above

theorem climb_found {stopped : β} (ends : climb parent stop fuel node = some (some stopped)) :
    ∃ above, Relation.TransGen (Above parent) node above ∧ stop above = some stopped := by
  induction fuel generalizing node with
  | zero => cases ends
  | succ fuel ih =>
      rw [climb] at ends
      split at ends
      · cases ends
      · rename_i above onto
        split at ends
        · rename_i met
          cases ends
          exact ⟨above, .single onto, met⟩
        · obtain ⟨higher, path, met⟩ := ih ends
          exact ⟨higher, .head onto path, met⟩

/-- A climb that comes to an end has met nothing above the node, and no loop. -/
theorem climb_clear (ends : climb parent stop fuel node = some none) :
    (∀ above, Relation.TransGen (Above parent) node above → stop above = none) ∧
      ∀ above, Relation.ReflTransGen (Above parent) node above →
        ¬ Relation.TransGen (Above parent) above above := by
  induction fuel generalizing node with
  | zero => cases ends
  | succ fuel ih =>
      rw [climb] at ends
      split at ends
      · rename_i top
        have alone : ∀ above, ¬ Relation.TransGen (Above parent) node above := by
          intro above path
          obtain ⟨next, onto, _⟩ := Relation.TransGen.head'_iff.mp path
          exact absurd (onto.symm.trans top) nofun
        refine ⟨fun above path => absurd path (alone above), ?_⟩
        intro above path loop
        obtain rfl | ⟨next, onto, _⟩ := Relation.ReflTransGen.cases_head path
        · exact alone _ loop
        · exact alone next (.single onto)
      · rename_i next onto
        split at ends
        · cases ends
        · rename_i free
          obtain ⟨clear, loopless⟩ := ih ends
          have only : ∀ other, Above parent node other → other = next :=
            fun other link => Option.some.inj (link.symm.trans onto)
          refine ⟨?_, ?_⟩
          · intro above path
            obtain ⟨other, link, path⟩ := Relation.TransGen.head'_iff.mp path
            rw [only other link] at path
            obtain rfl | further := Relation.reflTransGen_iff_eq_or_transGen.mp path
            · exact free
            · exact clear above further
          · intro above path loop
            obtain rfl | ⟨other, link, path⟩ := Relation.ReflTransGen.cases_head path
            · -- a loop through the node goes through the one above it as well
              obtain ⟨other, link, back⟩ := Relation.TransGen.head'_iff.mp loop
              rw [only other link] at back
              exact loopless next .refl (.tail' back onto)
            · rw [only other link] at path
              exact loopless above path loop

/-- A climb ends just if it meets something, or if no node that it passes is above itself. -/
theorem climb_ends_iff (node : α) (stop : α → Option β) {keys : Set α} (finite : keys.Finite)
    (inside : ∀ node above, parent node = some above → above ∈ keys) :
    (∃ fuel result, climb parent stop fuel node = some result) ↔
      (∀ above, Relation.ReflTransGen (Above parent) node above →
        ¬ Relation.TransGen (Above parent) above above) ∨
      ∃ above, Relation.TransGen (Above parent) node above ∧ stop above ≠ none := by
  constructor
  · rintro ⟨fuel, _ | stopped, ends⟩
    · exact .inl (climb_clear ends).2
    · obtain ⟨above, path, met⟩ := climb_found ends
      exact .inr ⟨above, path, by simp [met]⟩
  · rintro (loopless | ⟨above, path, met⟩)
    · -- the nodes that the climb passes
      let passes (item above : α) : Prop :=
        Relation.ReflTransGen (Above parent) node item ∧ Above parent item above
      have noLoop : ∀ item, ¬ Relation.TransGen passes item item := by
        intro item loop
        obtain ⟨_, ⟨passed, _⟩, _⟩ := Relation.TransGen.head'_iff.mp loop
        exact loopless item passed
          (Relation.TransGen.mono (fun _ _ step => step.2) _ _ loop)
      have ends := induction_of_loopless
        (fun item => Relation.ReflTransGen (Above parent) node item →
          ∃ fuel result, climb parent stop fuel item = some result)
        finite (fun item above step => inside item above step.2) noLoop
      apply ends ?_ node .refl
      intro item ih passed
      cases climbs : parent item with
      | none => exact ⟨1, none, by rw [climb, climbs]⟩
      | some above =>
          cases free : stop above with
          | some found =>
              refine ⟨1, some found, ?_⟩
              simp only [climb, climbs, free]
          | none =>
              obtain ⟨fuel, result, returned⟩ := ih above ⟨passed, climbs⟩ (passed.tail climbs)
              refine ⟨fuel + 1, result, ?_⟩
              simp only [climb, climbs, free, returned]
    · induction path using Relation.TransGen.head_induction_on with
      | @single item onto =>
          obtain ⟨found, stops⟩ := Option.ne_none_iff_exists'.mp met
          have climbs : parent item = some above := onto
          refine ⟨1, some found, ?_⟩
          simp only [climb, climbs, stops]
      | @head item next onto _ ih =>
          have climbs : parent item = some next := onto
          cases free : stop next with
          | some found =>
              refine ⟨1, some found, ?_⟩
              simp only [climb, climbs, free]
          | none =>
              obtain ⟨fuel, result, returned⟩ := ih
              refine ⟨fuel + 1, result, ?_⟩
              simp only [climb, climbs, free, returned]

end Univiz.Data
