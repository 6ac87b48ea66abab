import Univiz.Ontology.Containment

namespace Univiz.Ontology

open Univiz.Data

/-! Which levels come out, and when they do not depend on the order of the types. -/

namespace EntityDefinitions

variable {defs : EntityDefinitions} {type parent child : String} {order order' : List String}

def IsRoot (defs : EntityDefinitions) (type : String) : Prop :=
  type ∈ defs.types ∧ ∀ parent, ¬ defs.Contains parent type

/-- The lengths of the containment chains from a root type down to a type. -/
def chains (defs : EntityDefinitions) (type : String) : Set Nat :=
  { length | ∃ root, defs.IsRoot root ∧ Steps defs.Contains length root type }

theorem above_eq : defs.containment.Above = defs.Contains := by
  funext parent child
  exact propext above_iff

theorem isRoot_iff : defs.containment.Root type ↔ defs.IsRoot type := by
  refine and_congr_right fun _ => ?_
  rw [List.eq_nil_iff_forall_not_mem]
  exact forall_congr' fun parent => not_congr mem_parents

theorem descents_eq : defs.containment.descents = defs.chains := by
  funext type
  simp only [Hierarchy.descents, chains, isRoot_iff, above_eq]

/-- No cycle of containment can be reached from a root type. -/
def Grounded (defs : EntityDefinitions) : Prop :=
  ∀ type, (defs.chains type).Nonempty → ¬ Relation.TransGen defs.Contains type type

theorem grounded_iff : defs.containment.Grounded ↔ defs.Grounded := by
  simp only [Hierarchy.Grounded, Grounded, descents_eq, above_eq]

theorem Grounded.get_deriveFromContainment (grounded : defs.Grounded)
    (types : order.Perm defs.types) (contains : defs.Contains parent child) {level : Nat} :
    (defs.deriveFromContainment order).get type = some level ↔
      IsGreatest (defs.chains type) level := by
  rw [EntityDefinitions.get_deriveFromContainment types (mem_parents.mpr contains),
    (grounded_iff.mpr grounded).iterate_eq_some fun _ listed => types.mem_iff.mpr listed,
    descents_eq]
  exact Nat.le_succ_of_le (Nat.le_of_eq types.length_eq.symm)

theorem Grounded.derived_alike (grounded : defs.Grounded) (types : order.Perm defs.types)
    (types' : order'.Perm defs.types) :
    (defs.deriveFromContainment order).get type =
      (defs.deriveFromContainment order').get type := by
  by_cases apart : ∀ parent child, ¬ defs.Contains parent child
  · rw [deriveFromContainment_of_apart apart, deriveFromContainment_of_apart apart]
  · simp only [not_forall, not_not] at apart
    obtain ⟨parent, child, contains⟩ := apart
    apply Option.ext
    intro level
    rw [grounded.get_deriveFromContainment types contains,
      grounded.get_deriveFromContainment types' contains]

theorem grounded_of_derived_alike
    (alike : ∀ order, order.Perm defs.types → ∀ type,
      (defs.deriveFromContainment order).get type =
        (defs.deriveFromContainment defs.types).get type) : defs.Grounded := by
  by_cases apart : ∀ parent child, ¬ defs.Contains parent child
  · intro type _ cycle
    obtain ⟨parent, -, contains⟩ := Relation.TransGen.tail'_iff.mp cycle
    exact apart parent type contains
  · simp only [not_forall, not_not] at apart
    obtain ⟨parent, child, contains⟩ := apart
    refine grounded_iff.mp ?_
    refine @Hierarchy.grounded_of_alike _ defs.containment _ defs.types.length
      (defs.deriveFromContainment defs.types).get ?_
    intro order types
    have same := funext (alike order types)
    rw [← same, EntityDefinitions.get_deriveFromContainment types (mem_parents.mpr contains),
      types.length_eq]
    rfl

/-! The level map. -/

theorem get_declared : defs.declared.get type =
    (defs.get type).bind fun entry => entry.hierarchy.bind (·.level.int?) := by
  let act : Option Int → EntityTypeDefEntry → Option Int :=
    fun former entry => (entry.hierarchy.bind (·.level.int?)).or former
  have written : defs.declared.get type =
      ((defs.get type).map (act (OrderedMap.empty.get type))).getD
        (OrderedMap.empty.get type) := by
    refine OrderedMap.get_foldl_write ?_ defs.distinct
    intro map entry key
    simp only [declareLevel, act]
    cases entry.2.hierarchy.bind (·.level.int?) with
    | none => simp
    | some level => rw [OrderedMap.get_set]; rfl
  rw [written]
  cases defs.get type with
  | none => rfl
  | some entry => simp [act]

theorem get_deriveLevelMap : (defs.deriveLevelMap order).get type =
    (defs.declared.get type).or
      (((defs.deriveFromContainment order).get type).map (Nat.cast : Nat → Int)) := by
  simp only [deriveLevelMap]
  split
  · rename_i empty
    have apart : ∀ parent child, ¬ defs.Contains parent child := by
      intro parent child contains
      have listed := contains.2.1
      simp [types, empty] at listed
    rw [deriveFromContainment_of_apart apart]
    simp [declared, empty]
  · rw [OrderedMap.get_overlay, OrderedMap.get_foldl_entries (OrderedMap.distinct _),
      OrderedMap.get_empty, Option.or_none]
    rfl

end EntityDefinitions

/-! The digest. -/

theorem itemLe_trans (first second third : String × Int) (below : itemLe first second = true)
    (below' : itemLe second third = true) : itemLe first third = true := by
  simp only [itemLe, Bool.or_eq_true, Bool.and_eq_true, decide_eq_true_eq] at below below' ⊢
  rcases below with less | ⟨same, less⟩
  · rcases below' with less' | ⟨same', -⟩
    · exact .inl (lt_trans less less')
    · exact .inl (same' ▸ less)
  · rcases below' with less' | ⟨same', less'⟩
    · exact .inl (same ▸ less')
    · exact .inr ⟨same.trans same', le_trans less less'⟩

theorem itemLe_total (first second : String × Int) :
    (itemLe first second || itemLe second first) = true := by
  simp only [itemLe, Bool.or_eq_true, Bool.and_eq_true, decide_eq_true_eq]
  rcases lt_trichotomy first.1 second.1 with less | same | greater
  · exact .inl (.inl less)
  · rcases le_total first.2 second.2 with less | greater
    · exact .inl (.inr ⟨same, less⟩)
    · exact .inr (.inr ⟨same.symm, greater⟩)
  · exact .inr (.inl greater)

theorem itemLe_antisymm (first second : String × Int) (below : itemLe first second = true)
    (below' : itemLe second first = true) : first = second := by
  simp only [itemLe, Bool.or_eq_true, Bool.and_eq_true, decide_eq_true_eq] at below below'
  rcases below with less | ⟨same, less⟩
  · rcases below' with less' | ⟨same', -⟩
    · exact absurd less' (lt_asymm less)
    · exact absurd same' (ne_of_gt less)
  · rcases below' with less' | ⟨-, less'⟩
    · exact absurd same (ne_of_gt less')
    · exact Prod.ext same (le_antisymm less less')

/-- The digest depends on the entries alone. -/
theorem computeLevelDigest_eq {dumps : List (String × Int) → String} {sha256 : String → String}
    {levels levels' : OrderedMap String Int} (alike : ∀ type, levels.get type = levels'.get type) :
    computeLevelDigest dumps sha256 levels = computeLevelDigest dumps sha256 levels' := by
  have members : ∀ entry, entry ∈ levels.entries ↔ entry ∈ levels'.entries := by
    intro ⟨type, level⟩
    rw [← OrderedMap.get_eq_some, ← OrderedMap.get_eq_some, alike]
  have permuted := (List.perm_ext_iff_of_nodup levels.nodup_entries levels'.nodup_entries).mpr
    members
  have sorted (items : List (String × Int)) :
      (items.mergeSort itemLe).Pairwise fun first second => itemLe first second = true :=
    List.pairwise_mergeSort itemLe_trans itemLe_total items
  have same : levels.entries.mergeSort itemLe = levels'.entries.mergeSort itemLe :=
    List.Perm.eq_of_pairwise (fun first second _ _ => itemLe_antisymm first second)
      (sorted _) (sorted _)
      ((List.mergeSort_perm _ _).trans (permuted.trans (List.mergeSort_perm _ _).symm))
  rw [computeLevelDigest, computeLevelDigest, same]

namespace EntityDefinitions

/-- Whatever the order of the types, the same levels and the same digest come out. -/
def OrderFree (dumps : List (String × Int) → String) (sha256 : String → String)
    (defs : EntityDefinitions) : Prop :=
  ∀ order order', order.Perm defs.types → order'.Perm defs.types →
    (∀ type, (defs.deriveFromContainment order).get type =
      (defs.deriveFromContainment order').get type) ∧
    computeLevelDigest dumps sha256 (defs.deriveLevelMap order) =
      computeLevelDigest dumps sha256 (defs.deriveLevelMap order')

theorem orderFree_iff (dumps : List (String × Int) → String) (sha256 : String → String)
    (defs : EntityDefinitions) : defs.OrderFree dumps sha256 ↔ defs.Grounded := by
  constructor
  · intro free
    exact grounded_of_derived_alike fun order types =>
      (free order defs.types types (.refl _)).1
  · intro grounded order order' types types'
    have alike : ∀ type, (defs.deriveFromContainment order).get type =
        (defs.deriveFromContainment order').get type :=
      fun type => grounded.derived_alike types types'
    refine ⟨alike, computeLevelDigest_eq ?_⟩
    intro type
    rw [get_deriveLevelMap, get_deriveLevelMap, alike]

/-- A root type contains one of two types that contain each other. -/
def circular : EntityDefinitions :=
  parseEntityDefinitions
    ⟨[("domain", { hierarchy := some { can_contain := some (some ["table"]) } }),
      ("table", { hierarchy := some { can_contain := some (some ["column"]) } }),
      ("column", { hierarchy := some { canContain := some (some ["table"]) } })], by decide⟩

/-- The level of a column is 8 or 6. -/
theorem circular_not_orderFree : ¬ ∃ dumps sha256, circular.OrderFree dumps sha256 := by
  intro ⟨dumps, sha256, free⟩
  have types : ["domain", "table", "column"].Perm circular.types := by decide +kernel
  have types' : ["domain", "column", "table"].Perm circular.types := by decide +kernel
  have level : (circular.deriveFromContainment ["domain", "table", "column"]).get "column" =
      some 8 := by decide +kernel
  have level' : (circular.deriveFromContainment ["domain", "column", "table"]).get "column" =
      some 6 := by decide +kernel
  have alike := (free _ _ types types').1 "column"
  rw [level, level'] at alike
  cases alike

end EntityDefinitions

end Univiz.Ontology
