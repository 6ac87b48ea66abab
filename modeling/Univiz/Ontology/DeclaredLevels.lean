import Univiz.Ontology.LevelOrder

namespace Univiz.Ontology

open Univiz.Data

/-! Levels against the stored definitions. -/

/-- The value under the key `level`, if the key is there. -/
def RawEntity.levelKey (data : RawEntity) : Option LevelValue :=
  data.hierarchy.bind (·.level)

def RawEntity.declaredLevel (data : RawEntity) : Option Int :=
  data.levelKey.bind (·.int?)

abbrev RawDefinitions := OrderedMap String RawEntity

namespace RawDefinitions

open EntityDefinitions

variable {raw : RawDefinitions} {data : RawEntity} {type : String} {order : List String}

def Acyclic (raw : RawDefinitions) : Prop :=
  ∀ type, ¬ Relation.TransGen (parseEntityDefinitions raw).Contains type type

/-- Every type has its declared level, or else the length of the longest chain of
containment from a root type. -/
def Leveled (raw : RawDefinitions) (order : List String) : Prop :=
  ∀ type data, raw.get type = some data →
    let level := ((parseEntityDefinitions raw).deriveLevelMap order).get type
    match data.declaredLevel with
    | some declared => level = some declared
    | none => ∃ longest : Nat,
        IsGreatest ((parseEntityDefinitions raw).chains type) longest ∧ level = some longest

/-- A type without the key is a root, and one whose value is no level stands in a
definition that says what contains what. -/
def TellsLevels (raw : RawDefinitions) : Prop :=
  ∀ type data, raw.get type = some data →
    (data.levelKey = none → (parseEntityDefinitions raw).IsRoot type) ∧
    (data.levelKey = some .other →
      ∃ parent child, (parseEntityDefinitions raw).Contains parent child)

theorem get_parseEntityDefinitions : (parseEntityDefinitions raw).get type =
    (raw.get type).map entityDefFromDict := by
  rw [parseEntityDefinitions, OrderedMap.get_foldl_entries raw.distinct, OrderedMap.get_empty,
    Option.or_none]
  rfl

/-- The parser declares level 0 where the key is missing. -/
theorem get_declared_parsed (found : raw.get type = some data) :
    (parseEntityDefinitions raw).declared.get type = (data.levelKey.getD (.number 0)).int? := by
  rw [get_declared, get_parseEntityDefinitions, found]
  obtain ⟨hierarchy⟩ := data
  cases hierarchy <;> rfl

theorem isGreatest_zero_iff {defs : EntityDefinitions} :
    IsGreatest (defs.chains type) 0 ↔ defs.IsRoot type := by
  constructor
  · intro ⟨⟨root, isRoot, steps⟩, _⟩
    cases steps
    exact isRoot
  · intro isRoot
    refine ⟨⟨type, isRoot, .here type⟩, ?_⟩
    intro length ⟨root, _, steps⟩
    cases steps with
    | here => exact Nat.le_refl 0
    | down _ step => exact absurd step (isRoot.2 _)

theorem Acyclic.isGreatest (acyclic : raw.Acyclic) (found : raw.get type = some data) :
    ∃ longest, IsGreatest ((parseEntityDefinitions raw).chains type) longest := by
  have listed : type ∈ (parseEntityDefinitions raw).containment.nodes := by
    refine mem_types.mpr ⟨entityDefFromDict data, ?_⟩
    rw [get_parseEntityDefinitions, found]
    rfl
  have grounded := grounded_iff.mpr fun type _ => acyclic type
  have reached := Hierarchy.descents_nonempty (above_eq ▸ acyclic) listed
  have greatest := grounded.isGreatest reached
  rw [descents_eq] at greatest
  exact ⟨_, greatest⟩

/-- The levels come out as declared or derived exactly for definitions that tell them. -/
theorem leveled_iff (acyclic : raw.Acyclic)
    (types : order.Perm (parseEntityDefinitions raw).types) :
    raw.Leveled order ↔ raw.TellsLevels := by
  refine forall_congr' fun type => forall_congr' fun data => forall_congr' fun found => ?_
  have merged : ((parseEntityDefinitions raw).deriveLevelMap order).get type =
      ((data.levelKey.getD (.number 0)).int?).or
        ((((parseEntityDefinitions raw).deriveFromContainment order).get type).map
          (Nat.cast : Nat → Int)) := by
    rw [get_deriveLevelMap, get_declared_parsed found]
  obtain ⟨longest, greatest⟩ := acyclic.isGreatest found
  simp only [merged, RawEntity.declaredLevel]
  cases key : data.levelKey with
  | none =>
      simp only [Option.bind_none, Option.getD_none, LevelValue.int?, Option.some_or,
        reduceCtorEq, false_implies, and_true, true_implies]
      rw [← isGreatest_zero_iff]
      constructor
      · rintro ⟨length, longest', zero⟩
        have same : length = 0 := Int.natCast_eq_zero.mp (Option.some.inj zero).symm
        rwa [same] at longest'
      · intro longest'
        exact ⟨0, longest', rfl⟩
  | some value =>
      cases value with
      | number level =>
          simp [LevelValue.int?]
      | other =>
          simp only [Option.bind_some, LevelValue.int?, Option.getD_some, Option.none_or,
            reduceCtorEq, false_implies, true_and, true_implies]
          constructor
          · rintro ⟨length, _, level⟩
            by_contra apart
            simp only [not_exists] at apart
            rw [deriveFromContainment_of_apart apart] at level
            cases level
          · rintro ⟨parent, child, contains⟩
            have grounded : (parseEntityDefinitions raw).Grounded := fun type _ => acyclic type
            refine ⟨longest, greatest, ?_⟩
            rw [(grounded.get_deriveFromContainment types contains).mpr greatest]
            rfl

/-- An order in which every parent comes before its children rules out cycles. -/
theorem acyclic_of_sorted {defs : EntityDefinitions} (sorted : List String)
    (before : ∀ pair ∈ defs.entries.flatMap (mentions defs.types),
      sorted.idxOf pair.2 < sorted.idxOf pair.1) :
    ∀ type, ¬ Relation.TransGen defs.Contains type type := by
  have later : ∀ {type other}, Relation.TransGen defs.Contains type other →
      sorted.idxOf type < sorted.idxOf other := by
    intro type other below
    induction below with
    | single contains => exact before _ (mem_mentions.mpr contains)
    | tail _ contains ih => exact Nat.lt_trans ih (before _ (mem_mentions.mpr contains))
  intro type cycle
  exact Nat.lt_irrefl _ (later cycle)

/-- A domain with a table with a column: only the root goes without the key. -/
def tiers : RawDefinitions :=
  let domain : RawHierarchy := { can_contain := some (some ["table"]) }
  let table : RawHierarchy := { level := some .other }
  let column : RawHierarchy :=
    { level := some (.number 3), canBeContainedBy := some (some ["table"]) }
  ⟨[("domain", ⟨domain⟩), ("table", ⟨table⟩), ("column", ⟨column⟩)], by decide⟩

theorem tiers_leveled : tiers.Leveled ["table", "column", "domain"] := by
  have acyclic : tiers.Acyclic :=
    acyclic_of_sorted ["domain", "table", "column"] (by decide +kernel)
  have types : ["table", "column", "domain"].Perm (parseEntityDefinitions tiers).types := by
    decide +kernel
  have root : (parseEntityDefinitions tiers).IsRoot "domain" :=
    isRoot_iff.mp ⟨by decide +kernel, by decide +kernel⟩
  have contains : (parseEntityDefinitions tiers).Contains "domain" "table" :=
    mem_mentions.mp (by decide +kernel)
  refine (leveled_iff acyclic types).mpr ?_
  intro type data found
  refine ⟨?_, fun _ => ⟨_, _, contains⟩⟩
  intro missing
  have unkeyed : ∀ entry ∈ tiers.entries, entry.2.levelKey = none → entry.1 = "domain" := by
    decide +kernel
  have same : type = "domain" := unkeyed _ (OrderedMap.get_eq_some.mp found) missing
  rwa [same]

/-- No stored definition has a level. -/
def untold : RawDefinitions :=
  ⟨[("domain", ⟨some { can_contain := some (some ["table"]) }⟩), ("table", {})], by decide⟩

/-- The table is on the domain's level. -/
theorem untold_not_leveled : untold.Acyclic ∧ ¬ untold.Leveled ["domain", "table"] := by
  have acyclic : untold.Acyclic := acyclic_of_sorted ["domain", "table"] (by decide +kernel)
  have contains : (parseEntityDefinitions untold).Contains "domain" "table" :=
    mem_mentions.mp (by decide +kernel)
  refine ⟨acyclic, ?_⟩
  intro leveled
  obtain ⟨longest, greatest, level⟩ := leveled "table" {} (by decide +kernel)
  have zero : ((parseEntityDefinitions untold).deriveLevelMap ["domain", "table"]).get "table" =
      some 0 := by decide +kernel
  have same : longest = 0 :=
    Int.natCast_eq_zero.mp (Option.some.inj (zero.symm.trans level)).symm
  rw [same] at greatest
  exact (isGreatest_zero_iff.mp greatest).2 _ contains

end RawDefinitions

end Univiz.Ontology
