import Univiz.Data.Buckets
import Univiz.Ontology.Levels

namespace Univiz.Ontology

open Univiz.Data

/-! The rounds over the types as a relaxation along the containment of their definitions. -/

namespace EntityDefinitions

variable {defs : EntityDefinitions} {parent child type : String}

/-- The types that the definition of a type names in a list. -/
def Names (list : EntityHierarchyData → Option (List String)) (defs : EntityDefinitions)
    (type name : String) : Prop :=
  ∃ entry hierarchy names, defs.get type = some entry ∧ entry.hierarchy = some hierarchy ∧
    list hierarchy = some names ∧ name ∈ names ∧ name ≠ ""

/-- A type contains another if the definition of either says so. -/
def Contains (defs : EntityDefinitions) (parent child : String) : Prop :=
  parent ≠ child ∧ parent ∈ defs.types ∧ child ∈ defs.types ∧
    (Names (·.canContain) defs parent child ∨ Names (·.canBeContainedBy) defs child parent)

theorem mem_types : type ∈ defs.types ↔ ∃ entry, defs.get type = some entry := by
  rw [types, List.mem_map]
  constructor
  · intro ⟨⟨name, entry⟩, listed, same⟩
    cases same
    exact ⟨entry, OrderedMap.get_eq_some.mpr listed⟩
  · intro ⟨entry, found⟩
    exact ⟨(type, entry), OrderedMap.get_eq_some.mp found, rfl⟩

theorem mem_named {types : List String} {list : Option (List String)} {name : String} :
    name ∈ (list.getD []).filter (fun name => name ≠ "" ∧ name ≠ type ∧ name ∈ types) ↔
      ∃ names, list = some names ∧ name ∈ names ∧ name ≠ "" ∧ name ≠ type ∧ name ∈ types := by
  rw [List.mem_filter, decide_eq_true_eq]
  cases list with
  | none => simp
  | some names => simp

theorem mem_mentions : (child, parent) ∈ defs.entries.flatMap (mentions defs.types) ↔
    defs.Contains parent child := by
  rw [List.mem_flatMap]
  constructor
  · intro ⟨⟨name, entry⟩, listed, named⟩
    have found := OrderedMap.get_eq_some.mpr listed
    have type := mem_types.mpr ⟨entry, found⟩
    simp only [mentions] at named
    split at named
    · cases named
    · rename_i hierarchy declared
      rcases List.mem_append.mp named with above | below
      · obtain ⟨parent', kept, same⟩ := List.mem_map.mp above
        cases same
        obtain ⟨names, list, member, nonempty, apart, isType⟩ := mem_named.mp kept
        exact ⟨apart, isType, type,
          .inr ⟨entry, hierarchy, names, found, declared, list, member, nonempty⟩⟩
      · obtain ⟨child', kept, same⟩ := List.mem_map.mp below
        cases same
        obtain ⟨names, list, member, nonempty, apart, isType⟩ := mem_named.mp kept
        exact ⟨Ne.symm apart, type, isType,
          .inl ⟨entry, hierarchy, names, found, declared, list, member, nonempty⟩⟩
  · intro ⟨apart, isParent, isChild, named⟩
    rcases named with ⟨entry, hierarchy, names, found, declared, list, member, nonempty⟩ |
      ⟨entry, hierarchy, names, found, declared, list, member, nonempty⟩
    · refine ⟨(parent, entry), OrderedMap.get_eq_some.mp found, ?_⟩
      have kept := mem_named.mpr ⟨names, list, member, nonempty, Ne.symm apart, isChild⟩
      simp only [mentions, declared]
      exact List.mem_append_right _ (List.mem_map_of_mem kept)
    · refine ⟨(child, entry), OrderedMap.get_eq_some.mp found, ?_⟩
      have kept := mem_named.mpr ⟨names, list, member, nonempty, apart, isParent⟩
      simp only [mentions, declared]
      exact List.mem_append_left _ (List.mem_map_of_mem kept)

theorem mem_foldl_addParent {pairs : List (String × String)}
    {parents : OrderedMap String (List String)} :
    parent ∈ ((pairs.foldl addParent parents).get child).getD [] ↔
      parent ∈ (parents.get child).getD [] ∨ (child, parent) ∈ pairs := by
  have grows (parents : OrderedMap String (List String)) (pair : String × String) :
      parent ∈ ((addParent parents pair).get child).getD [] ↔
        parent ∈ (parents.get child).getD [] ∨ pair = (child, parent) := by
    obtain ⟨child', parent'⟩ := pair
    rw [addParent, OrderedMap.get_set, Prod.mk.injEq]
    by_cases same : child' = child
    · subst same
      simp only [↓reduceIte, Option.getD_some, List.mem_insert_iff, true_and]
      rw [or_comm, eq_comm]
    · simp only [same, ↓reduceIte, false_and, or_false]
  rw [holds_foldl_iff (fun parents : OrderedMap String (List String) =>
    parent ∈ (parents.get child).getD []) _ grows, exists_eq_right]

theorem foldl_addParent_ne_nil {pairs : List (String × String)}
    {parents : OrderedMap String (List String)}
    (filled : ∀ child list, parents.get child = some list → list ≠ []) :
    ∀ child list, (pairs.foldl addParent parents).get child = some list → list ≠ [] := by
  induction pairs generalizing parents with
  | nil => exact filled
  | cons pair rest ih =>
      refine ih ?_
      intro child list found
      rw [addParent, OrderedMap.get_set] at found
      split at found
      · cases found
        intro empty
        have member := List.mem_insert_self (a := pair.2) (l := (parents.get pair.1).getD [])
        rw [empty] at member
        cases member
      · exact filled child list found

theorem mem_parents : parent ∈ (defs.parents.get child).getD [] ↔ defs.Contains parent child := by
  rw [parents, mem_foldl_addParent, mem_mentions]
  simp

theorem get_parents_eq_none : defs.parents.get child = none ↔
    (defs.parents.get child).getD [] = [] := by
  constructor
  · intro absent
    rw [absent]
    rfl
  · intro empty
    cases found : defs.parents.get child with
    | none => rfl
    | some list =>
        rw [found] at empty
        exact absurd empty (foldl_addParent_ne_nil (by simp) child list found)

/-- The containment of the types. -/
def containment (defs : EntityDefinitions) : Hierarchy String where
  nodes := defs.types
  parents child := (defs.parents.get child).getD []
  closed listed := ⟨(mem_parents.mp listed).2.1, (mem_parents.mp listed).2.2.1⟩
  irreflexive _ listed := (mem_parents.mp listed).1 rfl

theorem above_iff : defs.containment.Above parent child ↔ defs.Contains parent child :=
  mem_parents

/-! Levels as a function. -/

variable {parents : OrderedMap String (List String)} {round : Levels × Bool}

def lookupParents (parents : OrderedMap String (List String)) (child : String) : List String :=
  (parents.get child).getD []

theorem get_visit : (visit parents round type).1.get =
    Hierarchy.relax (lookupParents parents) round.1.get type := by
  funext other
  simp only [visit, Hierarchy.relax, Hierarchy.relaxed, lookupParents, Function.update_apply]
  cases highest : (((parents.get type).getD []).filterMap round.1.get).max? with
  | none =>
      simp only
      split
      · rename_i same
        rw [same]
      · rfl
  | some highest' =>
      simp only
      split
      · rename_i unchanged
        split
        · rename_i same
          rw [same, unchanged]
        · rfl
      · rw [OrderedMap.get_set]
        by_cases same : other = type
        · subst same
          simp only [↓reduceIte]
        · rw [if_neg (Ne.symm same), if_neg same]

theorem get_foldl_visit {order : List String} : (order.foldl (visit parents) round).1.get =
    Hierarchy.sweep (lookupParents parents) order round.1.get := by
  induction order generalizing round with
  | nil => rfl
  | cons first rest ih => rw [List.foldl_cons, ih, get_visit, Hierarchy.sweep, Hierarchy.sweep,
      List.foldl_cons]

/-- A round that reports no change has made none. -/
theorem foldl_visit_unchanged {order : List String}
    (unchanged : (order.foldl (visit parents) round).2 = false) :
    order.foldl (visit parents) round = round := by
  induction order generalizing round with
  | nil => rfl
  | cons first rest ih =>
      rw [List.foldl_cons] at unchanged ⊢
      have later := ih unchanged
      rw [later] at unchanged ⊢
      simp only [visit] at unchanged ⊢
      split
      · rfl
      · split
        · rfl
        · rename_i highest differs
          simp [highest, differs] at unchanged

theorem get_relaxLevels {order : List String} {iterations : Nat} {levels : Levels} :
    (relaxLevels parents order iterations levels).get =
      (Hierarchy.sweep (lookupParents parents) order)^[iterations] levels.get := by
  induction iterations generalizing levels with
  | zero => rfl
  | succ iterations ih =>
      have swept := @get_foldl_visit parents (levels, false) order
      rw [Function.iterate_succ_apply, ← swept]
      simp only [relaxLevels]
      split
      · exact ih
      · rename_i unchanged
        have kept := foldl_visit_unchanged (Bool.eq_false_iff.mpr unchanged)
        rw [kept] at swept ⊢
        exact (Function.iterate_fixed swept.symm iterations).symm

theorem get_rootLevels {order : List String} (types : order.Perm defs.types) :
    (rootLevels defs.parents order).get = defs.containment.start := by
  funext type
  rw [rootLevels, OrderedMap.get_foldl_set, OrderedMap.get_empty, Hierarchy.start]
  have roots : type ∈ order.filter (fun type => (defs.parents.get type).isNone) ↔
      type ∈ defs.containment.nodes ∧ defs.containment.parents type = [] := by
    rw [List.mem_filter, types.mem_iff, Option.isNone_iff_eq_none, get_parents_eq_none]
    rfl
  simp only [roots]

theorem parents_eq_empty : defs.parents.entries = [] ↔
    ∀ parent child, ¬ defs.Contains parent child := by
  constructor
  · intro empty parent child contains
    have listed := mem_parents.mpr contains
    simp [OrderedMap.get, OrderedMap.lookup, empty] at listed
  · intro apart
    cases entries : defs.parents.entries with
    | nil => rfl
    | cons entry rest =>
        have found : defs.parents.get entry.1 = some entry.2 :=
          OrderedMap.get_eq_some.mpr (entries ▸ List.mem_cons_self)
        have filled := foldl_addParent_ne_nil (by simp) entry.1 entry.2 found
        obtain ⟨parent, listed⟩ := List.exists_mem_of_ne_nil _ filled
        refine absurd (mem_parents.mp ?_) (apart parent entry.1)
        rw [found]
        exact listed

/-- The derivation relaxes the levels of the roots, one round more than there are types. -/
theorem get_deriveFromContainment {order : List String} (types : order.Perm defs.types)
    (contains : parent ∈ defs.containment.parents child) :
    (defs.deriveFromContainment order).get =
      (Hierarchy.sweep defs.containment.parents order)^[order.length + 1]
        defs.containment.start := by
  have some' : defs.parents.entries ≠ [] :=
    fun empty => parents_eq_empty.mp empty parent child (mem_parents.mp contains)
  simp only [deriveFromContainment, if_neg some']
  rw [get_relaxLevels, get_rootLevels types]
  rfl

theorem deriveFromContainment_of_apart {order : List String}
    (apart : ∀ parent child, ¬ defs.Contains parent child) :
    defs.deriveFromContainment order = OrderedMap.empty := by
  simp only [deriveFromContainment, if_pos (parents_eq_empty.mpr apart)]

end EntityDefinitions

end Univiz.Ontology
