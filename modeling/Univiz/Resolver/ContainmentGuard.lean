import Univiz.Data.Ascent

namespace Univiz.Resolver

open Univiz.Data

/-! `would_create_containment_cycle`, over a map from children to their parents. -/

def inspect (childUrn : String) (visited : List String) (cursor : String) : Option Bool :=
  if cursor = childUrn then some true
  else if cursor ∈ visited then some false
  else none

/-- Nothing where the rounds do not suffice. -/
def wouldCreateContainmentCycle (newParentUrn childUrn : String)
    (existingContainment : OrderedMap String String) (rounds : Nat) : Option Bool :=
  ascend (fun cursor => cursorAt (existingContainment.get cursor)) (inspect childUrn) false rounds
    [] (cursorAt (some newParentUrn))

/-- No URN is above itself. -/
def Acyclic (containment : OrderedMap String String) : Prop :=
  ∀ urn, ¬ Relation.TransGen (fun child parent => containment.get child = some parent) urn urn

/-- A parent link between two URNs that are not empty. -/
def NamedParent (containment : OrderedMap String String) (child parent : String) : Prop :=
  child ≠ "" ∧ parent ≠ "" ∧ containment.get child = some parent

/-- No URN is above itself by way of URNs that are not empty. -/
def NamedAcyclic (containment : OrderedMap String String) : Prop :=
  ∀ urn, ¬ Relation.TransGen (NamedParent containment) urn urn

variable {containment : OrderedMap String String} {newParentUrn childUrn urn parent : String}
  {visited : List String} {rounds : Nat}

theorem Acyclic.named (acyclic : Acyclic containment) : NamedAcyclic containment := by
  intro urn loop
  exact acyclic urn (Relation.TransGen.mono (fun _ _ link => link.2.2) _ _ loop)

theorem inspect_guarded (childUrn : String) : Guarded (inspect childUrn) := by
  intro visited cursor met unchecked
  unfold inspect at unchecked
  rw [if_pos met] at unchecked
  split at unchecked <;> cases unchecked

theorem namedParent_iff (named : urn ≠ "") :
    NamedParent containment urn parent ↔ cursorAt (containment.get urn) = some parent := by
  rw [cursorAt_eq_some, NamedParent]
  tauto

/-- A walk that comes from below its cursor meets nothing again. -/
theorem ascend_inspect (acyclic : NamedAcyclic containment) (named : urn ≠ "")
    (below : ∀ met ∈ visited, Relation.TransGen (NamedParent containment) met urn) {answer : Bool}
    (ended : ascend (fun cursor => cursorAt (containment.get cursor)) (inspect childUrn) false
      rounds visited (some urn) = some answer) :
    answer = true ↔ Relation.ReflTransGen (NamedParent containment) urn childUrn := by
  induction rounds generalizing urn visited with
  | zero => cases ended
  | succ rounds ih =>
      have fresh : urn ∉ visited := fun met => acyclic urn (below urn met)
      by_cases arrived : urn = childUrn
      · simp only [ascend, inspect, if_pos arrived, Option.some.injEq] at ended
        exact iff_of_true ended.symm (arrived ▸ .refl)
      · simp only [ascend, inspect, if_neg arrived, if_neg fresh] at ended
        cases climbs : cursorAt (containment.get urn) with
        | none =>
            rw [climbs] at ended
            cases rounds with
            | zero => cases ended
            | succ rounds =>
                obtain rfl : false = answer := Option.some.inj ended
                refine iff_of_false Bool.false_ne_true ?_
                intro path
                obtain same | ⟨above, link, _⟩ := Relation.ReflTransGen.cases_head path
                · exact arrived same
                · rw [(namedParent_iff named).mp link] at climbs
                  cases climbs
        | some above =>
            rw [climbs] at ended
            have link : NamedParent containment urn above := (namedParent_iff named).mpr climbs
            have higher : ∀ met ∈ urn :: visited,
                Relation.TransGen (NamedParent containment) met above := by
              intro met member
              obtain rfl | earlier := List.mem_cons.mp member
              · exact .single link
              · exact (below met earlier).tail link
            rw [ih link.2.1 higher ended]
            constructor
            · exact fun path => .head link path
            · intro path
              obtain same | ⟨other, onto, path⟩ := Relation.ReflTransGen.cases_head path
              · exact absurd same arrived
              · obtain rfl : other = above := by
                  have climbs' := (namedParent_iff named).mp onto
                  exact Option.some.inj (climbs'.symm.trans climbs)
                exact path

/-- A link to or from the empty URN changes nothing for the others. -/
theorem namedAcyclic_set_iff (acyclic : NamedAcyclic containment) :
    NamedAcyclic (containment.set childUrn newParentUrn) ↔
      childUrn = "" ∨ newParentUrn = "" ∨
        ¬ Relation.ReflTransGen (NamedParent containment) newParentUrn childUrn := by
  by_cases nameless : childUrn = "" ∨ newParentUrn = ""
  · refine iff_of_true ?_ (by tauto)
    intro urn loop
    refine acyclic urn (Relation.TransGen.mono ?_ _ _ loop)
    intro child parent ⟨named, namedParent, link⟩
    rw [OrderedMap.get_set] at link
    split at link
    · rename_i here
      cases link
      exact absurd nameless (by simp [here, named, namedParent])
    · exact ⟨named, namedParent, link⟩
  · obtain ⟨named, namedParent⟩ := not_or.mp nameless
    have rehung : NamedParent (containment.set childUrn newParentUrn) =
        Rehung (NamedParent containment) childUrn newParentUrn := by
      ext child parent
      rw [NamedParent, OrderedMap.get_set, Rehung, NamedParent]
      by_cases here : childUrn = child
      · subst here
        simp only [↓reduceIte, Option.some.injEq, ne_eq, not_true_eq_false, false_and, true_and,
          false_or]
        constructor
        · exact fun link => link.2.2.symm
        · rintro rfl
          exact ⟨named, namedParent, rfl⟩
      · have apart : child ≠ childUrn := fun same => here same.symm
        simp [here, apart]
    rw [NamedAcyclic, rehung, loopless_rehung_iff acyclic]
    tauto

theorem wouldCreateContainmentCycle_ends (newParentUrn childUrn : String)
    (containment : OrderedMap String String) (enough : containment.size + 1 < rounds) :
    ∃ answer, wouldCreateContainmentCycle newParentUrn childUrn containment rounds =
      some answer := ascend_links_ends (inspect_guarded childUrn) enough

theorem wouldCreateContainmentCycle_eq (acyclic : NamedAcyclic containment) {answer : Bool}
    (ended : wouldCreateContainmentCycle newParentUrn childUrn containment rounds = some answer) :
    answer = false ↔ NamedAcyclic (containment.set childUrn newParentUrn) := by
  rw [namedAcyclic_set_iff acyclic]
  by_cases named : newParentUrn = ""
  · refine iff_of_true ?_ (.inr (.inl named))
    cases rounds with
    | zero => cases ended
    | succ rounds =>
        subst named
        exact (Option.some.inj ended).symm
  · have started : cursorAt (some newParentUrn) = some newParentUrn :=
      cursorAt_eq_some.mpr ⟨rfl, named⟩
    rw [wouldCreateContainmentCycle, started] at ended
    have found := ascend_inspect acyclic named (fun _ met => absurd met List.not_mem_nil) ended
    have reached (path : Relation.ReflTransGen (NamedParent containment) newParentUrn childUrn) :
        childUrn ≠ "" := by
      obtain same | ⟨_, _, link⟩ := Relation.ReflTransGen.cases_tail path
      · exact same ▸ named
      · exact link.2.1
    rw [← Bool.not_eq_true, found]
    tauto

/-- The guard lets through just the links that close no cycle of named URNs. -/
theorem wouldCreateContainmentCycle_iff (acyclic : NamedAcyclic containment)
    (newParentUrn childUrn : String) :
    ∃ answer, (∀ rounds, containment.size + 1 < rounds →
        wouldCreateContainmentCycle newParentUrn childUrn containment rounds = some answer) ∧
      (answer = false ↔ NamedAcyclic (containment.set childUrn newParentUrn)) := by
  obtain ⟨answer, ended⟩ := wouldCreateContainmentCycle_ends newParentUrn childUrn containment
    (Nat.lt_succ_self _)
  have right := wouldCreateContainmentCycle_eq acyclic ended
  refine ⟨answer, ?_, right⟩
  intro rounds enough
  obtain ⟨other, ended'⟩ :=
    wouldCreateContainmentCycle_ends newParentUrn childUrn containment enough
  have right' := wouldCreateContainmentCycle_eq acyclic ended'
  have same : other = false ↔ answer = false := right'.trans right.symm
  rw [ended', Option.some.injEq]
  cases answer <;> simpa using same

theorem acyclic_empty : Acyclic .empty := by
  intro urn loop
  obtain ⟨_, link, _⟩ := Relation.TransGen.head'_iff.mp loop
  cases link

/-- A column under a table may get a schema above the table. -/
theorem wouldCreateContainmentCycle_iff_column :
    NamedAcyclic (OrderedMap.empty.set "column" "table") ∧
      ∃ answer, (∀ rounds, 2 < rounds →
        wouldCreateContainmentCycle "schema" "table" (OrderedMap.empty.set "column" "table")
          rounds = some answer) ∧
        (answer = false ↔
          NamedAcyclic ((OrderedMap.empty.set "column" "table").set "table" "schema")) := by
  have acyclic : NamedAcyclic (OrderedMap.empty.set "column" "table") := by
    rw [namedAcyclic_set_iff acyclic_empty.named]
    refine .inr (.inr ?_)
    intro path
    obtain same | ⟨_, link, _⟩ := Relation.ReflTransGen.cases_head path
    · exact absurd same (by decide)
    · cases link.2.2
  exact ⟨acyclic, wouldCreateContainmentCycle_iff acyclic "schema" "table"⟩

/-- A URN that is empty is not compared. -/
theorem emptyUrn_under_itself :
    Acyclic .empty ∧ wouldCreateContainmentCycle "" "" .empty 2 = some false ∧
      ¬ Acyclic (OrderedMap.empty.set "" "") := by
  refine ⟨acyclic_empty, rfl, ?_⟩
  intro acyclic
  exact acyclic "" (.single rfl)

end Univiz.Resolver
