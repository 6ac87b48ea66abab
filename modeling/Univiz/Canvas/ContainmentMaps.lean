import Mathlib.Data.Finset.Basic
import Mathlib.Data.Finset.Dedup
import Univiz.Canvas.Containment
import Univiz.Data.Transition

namespace Univiz.Canvas

open Univiz.Data

/-! The maps of the containment hook against a full rebuild. -/

variable (toUpperCase : String → String) (predicates : Nat → String → Bool)

def containments (isContainmentEdge : Nat) (edges : List LineageEdge) : List (String × String) :=
  edges.filterMap fun edge =>
    if edge.source = "" ∨ edge.target = "" then none
    else if predicates isContainmentEdge (normalizeEdgeType toUpperCase edge) = false then none
    else some (edge.source, edge.target)

def lastSource (pairs : List (String × String)) (target : String) : Option String :=
  (pairs.reverse.find? fun pair => pair.2 = target).map Prod.fst

/-- All targets of a source, if it has any. -/
def targetsOf (pairs : List (String × String)) (source : String) : Option (Finset String) :=
  let targets := ((pairs.filter fun pair => pair.1 = source).map Prod.snd).toFinset
  if targets = ∅ then none else some targets

structure Represents (maps : Maps) (pairs : List (String × String)) : Prop where
  parents : ∀ target, maps.parentMap.get target = lastSource pairs target
  children : ∀ source, (maps.childSets.get source).map List.toFinset = targetsOf pairs source

variable {pairs pairs' : List (String × String)} {maps : Maps} {source target other : String}
  {isContainmentEdge : Nat} {edges : List LineageEdge}

theorem lastSource_concat :
    lastSource (pairs ++ [(source, target)]) other =
      if target = other then some source else lastSource pairs other := by
  simp only [lastSource]
  rw [List.reverse_append, List.reverse_singleton, List.singleton_append, List.find?_cons]
  by_cases same : target = other
  · simp [same]
  · simp [same]

theorem mem_targetsOf {targets : Finset String} (found : targetsOf pairs source = some targets) :
    target ∈ targets ↔ (source, target) ∈ pairs := by
  simp only [targetsOf] at found
  split at found
  · cases found
  · cases found
    simp

theorem targetsOf_eq_none : targetsOf pairs source = none ↔
    ∀ target, (source, target) ∉ pairs := by
  simp only [targetsOf]
  split
  · rename_i empty
    simp only [true_iff]
    intro target member
    have inside : target ∈ ((pairs.filter fun pair => pair.1 = source).map Prod.snd).toFinset := by
      simpa using member
    rw [empty] at inside
    cases inside
  · rename_i inhabited
    obtain ⟨target, member⟩ := Finset.nonempty_iff_ne_empty.mpr inhabited
    simp only [reduceCtorEq, false_iff, not_forall, not_not]
    exact ⟨target, by simpa using member⟩

theorem targetsOf_eq_iff : (∀ source, targetsOf pairs source = targetsOf pairs' source) ↔
    ∀ pair, pair ∈ pairs ↔ pair ∈ pairs' := by
  constructor
  · intro same ⟨source, target⟩
    cases found : targetsOf pairs source with
    | none =>
        have absent := targetsOf_eq_none.mp found target
        have absent' := targetsOf_eq_none.mp ((same source).symm.trans found) target
        simp [absent, absent']
    | some targets =>
        rw [← mem_targetsOf found, ← mem_targetsOf ((same source).symm.trans found)]
  · intro same source
    have sets : ((pairs.filter fun pair => pair.1 = source).map Prod.snd).toFinset =
        ((pairs'.filter fun pair => pair.1 = source).map Prod.snd).toFinset := by
      ext target
      simp [same]
    simp only [targetsOf]
    rw [sets]

theorem toFinset_add (set : List String) (value : String) :
    (add set value).toFinset = insert value set.toFinset := by
  simp only [add]
  split
  · rename_i present
    exact (Finset.insert_eq_of_mem (List.mem_toFinset.mpr present)).symm
  · ext member
    simp only [List.mem_toFinset, List.mem_append, List.mem_singleton, Finset.mem_insert, or_comm]

theorem targetsOf_concat : targetsOf (pairs ++ [(source, target)]) other =
    if source = other then some (insert target ((targetsOf pairs source).getD ∅))
    else targetsOf pairs other := by
  split
  · rename_i same
    subst same
    cases found : targetsOf (pairs ++ [(source, target)]) source with
    | none =>
        have absent := targetsOf_eq_none.mp found target
        exact absurd (List.mem_append_right _ List.mem_cons_self) absent
    | some targets =>
        congr 1
        ext member
        rw [mem_targetsOf found]
        cases former : targetsOf pairs source with
        | none =>
            have absent := targetsOf_eq_none.mp former member
            simp [absent]
        | some olds =>
            have inside : member ∈ olds ↔ (source, member) ∈ pairs := mem_targetsOf former
            simp [inside, or_comm]
  · rename_i apart
    have kept : (pairs ++ [(source, target)]).filter (fun pair => pair.1 = other) =
        pairs.filter fun pair => pair.1 = other := by
      simp [List.filter_append, apart]
    simp only [targetsOf]
    rw [kept]

theorem Represents.concat (represents : Represents maps pairs) :
    Represents
      { childSets := maps.childSets.set source (add ((maps.childSets.get source).getD []) target)
        parentMap := maps.parentMap.set target source }
      (pairs ++ [(source, target)]) := by
  constructor
  · intro other
    rw [OrderedMap.get_set, lastSource_concat, represents.parents other]
  · intro other
    rw [OrderedMap.get_set, targetsOf_concat, ← represents.children other,
      ← represents.children source]
    split
    · rw [Option.map_some, toFinset_add]
      cases maps.childSets.get source <;> rfl
    · rfl

theorem Represents.processEdges (represents : Represents maps pairs) :
    Represents (processEdges toUpperCase predicates isContainmentEdge maps edges)
      (pairs ++ containments toUpperCase predicates isContainmentEdge edges) := by
  induction edges generalizing maps pairs with
  | nil =>
      rw [containments, List.filterMap_nil, List.append_nil]
      exact represents
  | cons edge rest ih =>
      unfold Canvas.processEdges containments
      rw [List.foldl_cons, List.filterMap_cons, processEdge]
      split
      · exact ih represents
      · split
        · exact ih represents
        · dsimp only
          rw [List.append_cons]
          exact ih represents.concat

theorem fullRebuild_represents (isContainmentEdge : Nat) (edges : List LineageEdge) :
    Represents (fullRebuild toUpperCase predicates isContainmentEdge edges)
      (containments toUpperCase predicates isContainmentEdge edges) := by
  have empty : Represents ⟨.empty, .empty⟩ [] := ⟨fun _ => rfl, fun _ => rfl⟩
  exact empty.processEdges toUpperCase predicates

theorem Represents.mem_children (represents : Represents maps pairs) :
    target ∈ (maps.childSets.get source).getD [] ↔ (source, target) ∈ pairs := by
  have children := represents.children source
  cases found : maps.childSets.get source with
  | none =>
      rw [found] at children
      have absent := targetsOf_eq_none.mp children.symm target
      simp [absent]
  | some targets =>
      rw [found] at children
      rw [← mem_targetsOf children.symm, List.mem_toFinset, Option.getD_some]

theorem Represents.pair_of_parent (represents : Represents maps pairs)
    (parent : maps.parentMap.get target = some source) : (source, target) ∈ pairs := by
  rw [represents.parents, lastSource] at parent
  obtain ⟨pair, found, rfl⟩ := Option.map_eq_some_iff.mp parent
  have same : pair.2 = target := by simpa using List.find?_some found
  subst same
  exact List.mem_reverse.mp (List.mem_of_find?_eq_some found)

theorem fullRebuild_nodup (isContainmentEdge : Nat) (edges : List LineageEdge) (source : String) :
    (((fullRebuild toUpperCase predicates isContainmentEdge edges).childSets.get source).getD
      []).Nodup := by
  refine List.foldlRecOn edges _ (motive := fun maps : Maps =>
    ((maps.childSets.get source).getD []).Nodup) List.nodup_nil ?_
  intro maps distinct edge _
  rw [processEdge]
  split
  · exact distinct
  · split
    · exact distinct
    · dsimp only
      rw [OrderedMap.get_set]
      split
      · rename_i here
        rw [here, Option.getD_some, add]
        split
        · exact distinct
        · rename_i fresh
          exact List.nodup_append_comm.mp (List.nodup_cons.mpr ⟨fresh, distinct⟩)
      · exact distinct

theorem set_add_cases (childSets : OrderedMap String (List String)) (source target : String) :
    childSets.set source (add ((childSets.get source).getD []) target) = childSets ∨
      totalChildren childSets <
        totalChildren (childSets.set source (add ((childSets.get source).getD []) target)) := by
  have total := childSets.sum_set source (add ((childSets.get source).getD []) target) List.length
  cases found : childSets.get source with
  | none =>
      right
      simp only [found, add, Option.getD_none, List.not_mem_nil, ↓reduceIte, List.nil_append,
        Option.map_none, List.length_singleton] at total ⊢
      simp only [totalChildren]
      omega
  | some children =>
      by_cases present : target ∈ children
      · left
        rw [Option.getD_some, add, if_pos present]
        exact OrderedMap.set_of_get found
      · right
        simp only [found, add, Option.getD_some, present, ↓reduceIte, Option.map_some,
          List.length_append, List.length_singleton] at total ⊢
        simp only [totalChildren]
        omega

theorem processEdges_childSets (maps : Maps) :
    (processEdges toUpperCase predicates isContainmentEdge maps edges).childSets = maps.childSets ∨
      totalChildren maps.childSets <
        totalChildren (processEdges toUpperCase predicates isContainmentEdge maps edges).childSets := by
  induction edges generalizing maps with
  | nil => exact .inl rfl
  | cons edge rest ih =>
      simp only [processEdges]
      rw [List.foldl_cons]
      have first : (processEdge toUpperCase predicates isContainmentEdge maps edge).childSets =
            maps.childSets ∨
          totalChildren maps.childSets < totalChildren
            (processEdge toUpperCase predicates isContainmentEdge maps edge).childSets := by
        simp only [processEdge]
        split
        · exact .inl rfl
        · split
          · exact .inl rfl
          · exact set_add_cases maps.childSets edge.source edge.target
      have later := ih (processEdge toUpperCase predicates isContainmentEdge maps edge)
      simp only [processEdges] at later
      rcases first with same | more
      · rw [same] at later
        exact later
      · rcases later with same | further
        · exact .inr (same ▸ more)
        · exact .inr (more.trans further)

/-- The refs with the edges of the last render. -/
structure Hook where
  refs : Refs
  edges : List LineageEdge

def Hook.initial (first : UseContainmentHierarchyOptions) : Hook := ⟨Refs.initial first, []⟩

/-- A render in which the memo is computed again. -/
def render (hook : Hook) (options : UseContainmentHierarchyOptions) : Option Hook :=
  some ⟨memo toUpperCase predicates options hook.refs, options.edges⟩

/-- The map of children is derived from the child sets, whichever way a render takes. -/
structure Derived (hook : Hook) : Prop where
  length : hook.refs.prevEdgeLen = hook.edges.length
  childMap : hook.refs.childMap = hook.refs.maps.childSets
  source : hook.refs.childMapSource = none ∨
    hook.refs.childMapSource = some hook.refs.childSetsVersion ∧
      hook.refs.childMapKey = some (Canvas.childMapKey hook.refs.maps.childSets)

/-- The child sets are new, or they are old ones to which nothing has been added, or more
children are in them. -/
theorem chooseMaps_cases (options : UseContainmentHierarchyOptions) (refs : Refs) :
    (chooseMaps toUpperCase predicates options refs).2 = refs.childSetsVersion + 1 ∨
      (chooseMaps toUpperCase predicates options refs).2 = refs.childSetsVersion ∧
        ((chooseMaps toUpperCase predicates options refs).1.childSets = refs.maps.childSets ∨
          totalChildren refs.maps.childSets <
            totalChildren (chooseMaps toUpperCase predicates options refs).1.childSets) := by
  unfold chooseMaps
  split
  · dsimp only
    split
    · exact .inr ⟨rfl, .inl rfl⟩
    · exact .inl rfl
  · exact .inr ⟨rfl, processEdges_childSets toUpperCase predicates refs.maps⟩

theorem render_derived (options : UseContainmentHierarchyOptions) {hook next : Hook}
    (derived : Derived hook) (rendered : render toUpperCase predicates hook options = some next) :
    Derived next := by
  cases rendered
  have cases := chooseMaps_cases toUpperCase predicates options hook.refs
  simp only [memo]
  generalize chooseMaps toUpperCase predicates options hook.refs = chosen at cases
  obtain ⟨maps, version⟩ := chosen
  dsimp only at cases
  constructor
  · rfl
  · dsimp only
    split
    · rename_i reuse
      obtain ⟨source, key⟩ := reuse
      rw [derived.childMap]
      rcases derived.source with none | ⟨former, formerKey⟩
      · rw [none] at source
        cases source
      · rw [former, Option.some.injEq] at source
        rw [formerKey, Option.some.injEq] at key
        have totals := congrArg Prod.snd key
        rcases cases with fresh | ⟨-, same | more⟩
        · omega
        · exact same.symm
        · exact absurd totals (Nat.ne_of_lt more)
    · rfl
  · right
    dsimp only
    split
    · assumption
    · exact ⟨rfl, rfl⟩

def SameParents (pairs pairs' : List (String × String)) : Prop :=
  ∀ pair ∈ pairs ++ pairs', lastSource pairs pair.2 = lastSource pairs' pair.2

def SamePairs (pairs pairs' : List (String × String)) : Prop :=
  (∀ pair ∈ pairs, pair ∈ pairs') ∧ ∀ pair ∈ pairs', pair ∈ pairs

instance : DecidableRel SameParents :=
  fun pairs pairs' => inferInstanceAs (Decidable (∀ pair ∈ pairs ++ pairs', _))

instance : DecidableRel SamePairs :=
  fun _ _ => inferInstanceAs (Decidable (_ ∧ _))

theorem lastSource_eq_none (absent : ∀ pair ∈ pairs, pair.2 ≠ target) :
    lastSource pairs target = none := by
  have searched : (pairs.reverse.find? fun pair => pair.2 = target) = none := by
    apply List.find?_eq_none.mpr
    intro pair member
    simpa using absent pair (List.mem_reverse.mp member)
  rw [lastSource, searched]
  rfl

theorem sameParents_iff : SameParents pairs pairs' ↔
    ∀ target, lastSource pairs target = lastSource pairs' target := by
  constructor
  · intro same target
    by_cases occurs : ∃ pair ∈ pairs ++ pairs', pair.2 = target
    · obtain ⟨pair, member, rfl⟩ := occurs
      exact same pair member
    · have absent : ∀ pair ∈ pairs ++ pairs', pair.2 ≠ target :=
        fun pair member equal => occurs ⟨pair, member, equal⟩
      obtain ⟨first, second⟩ := List.forall_mem_append.mp absent
      rw [lastSource_eq_none first, lastSource_eq_none second]
  · intro same pair _
    exact same pair.2

theorem samePairs_iff : SamePairs pairs pairs' ↔
    ∀ source, targetsOf pairs source = targetsOf pairs' source := by
  rw [targetsOf_eq_iff]
  constructor
  · intro ⟨forth, back⟩ pair
    exact ⟨forth pair, back pair⟩
  · intro same
    exact ⟨fun pair => (same pair).mp, fun pair => (same pair).mpr⟩

theorem Represents.iff (represents : Represents maps pairs) :
    Represents maps pairs' ↔ SameParents pairs pairs' ∧ SamePairs pairs pairs' := by
  rw [sameParents_iff, samePairs_iff]
  constructor
  · intro other
    constructor
    · intro target
      rw [← represents.parents, other.parents]
    · intro source
      rw [← represents.children, other.children]
  · intro ⟨parents, children⟩
    constructor
    · intro target
      rw [represents.parents, parents]
    · intro source
      rw [represents.children, children]

/-- What a render takes over is up to date: where all edges are processed again, no set of
children has changed unless some parent has; and where they are not, the edges before the
new ones still have the parents and the children of the last render, as far as the new
ones do not replace them. -/
def ReusesCurrent (hook : Hook) (options : UseContainmentHierarchyOptions) : Prop :=
  let former := containments toUpperCase predicates hook.refs.prevIsContainment hook.edges
  let current := containments toUpperCase predicates options.isContainmentEdge options.edges
  if needsFullRebuild options hook.refs then SameParents former current → SamePairs former current
  else
    let added := options.edges.drop hook.refs.prevEdgeLen
    let patched := former ++ containments toUpperCase predicates options.isContainmentEdge added
    SameParents patched current ∧ SamePairs patched current

instance (hook : Hook) (options : UseContainmentHierarchyOptions) :
    Decidable (ReusesCurrent toUpperCase predicates hook options) := by
  simp only [ReusesCurrent]
  infer_instance

theorem chooseMaps_represents_iff {hook : Hook} {options : UseContainmentHierarchyOptions}
    (represents : Represents hook.refs.maps
      (containments toUpperCase predicates hook.refs.prevIsContainment hook.edges)) :
    Represents (chooseMaps toUpperCase predicates options hook.refs).1
        (containments toUpperCase predicates options.isContainmentEdge options.edges) ↔
      ReusesCurrent toUpperCase predicates hook options := by
  unfold chooseMaps ReusesCurrent
  dsimp only
  split
  · have rebuilt := fullRebuild_represents toUpperCase predicates options.isContainmentEdge
      options.edges
    have compared : parentMapEqual hook.refs.maps.parentMap (fullRebuild toUpperCase predicates
        options.isContainmentEdge options.edges).parentMap ↔
        SameParents (containments toUpperCase predicates hook.refs.prevIsContainment hook.edges)
          (containments toUpperCase predicates options.isContainmentEdge options.edges) := by
      rw [parentMapEqual, OrderedMap.get_eq_iff, sameParents_iff]
      simp only [represents.parents, rebuilt.parents]
    split
    · rename_i equal
      have parents := compared.mp equal
      rw [represents.iff]
      simp [parents]
    · rename_i differ
      constructor
      · intro _ same
        exact absurd (compared.mpr same) differ
      · intro _
        exact rebuilt
  · exact (represents.processEdges toUpperCase predicates).iff

/-- The maps of the last render are those of a full rebuild from its edges: a target has
the source of its last containment edge, a source has all targets of its containment edges. -/
def Current (hook : Hook) : Prop :=
  let rebuilt := fullRebuild toUpperCase predicates hook.refs.prevIsContainment hook.edges
  let pairs := containments toUpperCase predicates hook.refs.prevIsContainment hook.edges
  (∀ target, hook.refs.maps.parentMap.get target = rebuilt.parentMap.get target ∧
    hook.refs.maps.parentMap.get target = lastSource pairs target) ∧
  ∀ source, (hook.refs.childMap.get source).map List.toFinset =
      (rebuilt.childSets.get source).map List.toFinset ∧
    (hook.refs.childMap.get source).map List.toFinset = targetsOf pairs source

theorem current_iff {hook : Hook} (derived : Derived hook) :
    Current toUpperCase predicates hook ↔ Represents hook.refs.maps
      (containments toUpperCase predicates hook.refs.prevIsContainment hook.edges) := by
  have rebuilt := fullRebuild_represents toUpperCase predicates hook.refs.prevIsContainment
    hook.edges
  simp only [Current]
  simp only [rebuilt.parents, rebuilt.children, derived.childMap, and_self]
  exact ⟨fun ⟨parents, children⟩ => ⟨parents, children⟩,
    fun ⟨parents, children⟩ => ⟨parents, children⟩⟩

/-- The maps are current after every render if and only if what every render takes over
is up to date. -/
theorem memo_current_iff (first : UseContainmentHierarchyOptions)
    (rest : List UseContainmentHierarchyOptions) :
    Always (render toUpperCase predicates) (Current toUpperCase predicates)
        (Hook.initial first) (first :: rest) ↔
      Meets (render toUpperCase predicates) (ReusesCurrent toUpperCase predicates)
        (Hook.initial first) (first :: rest) := by
  have initial : Derived (Hook.initial first) := ⟨rfl, rfl, .inl rfl⟩
  apply always_iff_meets Derived
  · intro hook options next derived rendered
    exact render_derived toUpperCase predicates options derived rendered
  · intro hook options derived current
    have represents := (current_iff toUpperCase predicates derived).mp current
    have nextDerived := render_derived toUpperCase predicates options derived rfl
    rw [← chooseMaps_represents_iff toUpperCase predicates represents]
    simp only [render, Option.some.injEq, forall_eq']
    exact current_iff toUpperCase predicates nextDerived
  · exact initial
  · have empty : Represents ⟨.empty, .empty⟩ [] := ⟨fun _ => rfl, fun _ => rfl⟩
    exact (current_iff toUpperCase predicates initial).mpr empty

/-- Another array of one edge takes the place of the first. -/
theorem memo_not_current :
    ¬ ∀ (toUpperCase : String → String) (predicates : Nat → String → Bool)
      (first : UseContainmentHierarchyOptions) (rest : List UseContainmentHierarchyOptions),
      Always (render toUpperCase predicates) (Current toUpperCase predicates)
        (Hook.initial first) (first :: rest) := by
  intro always
  have runs := always id (fun _ type => type = "CONTAINS")
    ⟨[⟨"schema", "table", "CONTAINS", ""⟩], 0, none⟩
    [⟨[⟨"folder", "table", "CONTAINS", ""⟩], 0, none⟩]
  have current := (runs.2 _ rfl).2 _ rfl
  have parent := (current.1 "table").2
  revert parent
  decide

end Univiz.Canvas
