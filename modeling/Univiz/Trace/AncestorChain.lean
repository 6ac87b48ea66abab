import Mathlib.Data.Set.Finite.Basic
import Univiz.Data.Cycle
import Univiz.Data.OrderedMap
import Univiz.Trace.Orchestrator

namespace Univiz.Trace

open Univiz.Data

/-! `ContextEngine._validate_ancestor_chain`. -/

/-- What the check reads from outside: whether a violation raises, the order in which the
process goes through a set, and how it prints a list. -/
structure InvariantCheck where
  invariantStrict : Bool
  listed : List Urn → List Urn
  listed_perm : ∀ urns, (listed urns).Perm urns
  printed : List Urn → String

inductive CheckOutcome
  | silent
  | warned (msg : String)
  | raised (msg : String)
deriving DecidableEq

namespace TraceResult

variable (result : TraceResult)

def urnsPresent : List Urn := (result.nodes.map (·.urn)).dedup

/-- Of several parents of a node the one of the last edge stays. -/
def parentOf : OrderedMap Urn Urn :=
  result.containmentEdges.foldl (fun parents edge => parents.set edge.targetUrn edge.sourceUrn)
    OrderedMap.empty

/-- The walk from a node upwards: the first ancestor that is missing, if any.  Without fuel the
walk has not ended. -/
def walkUp : Nat → Urn → Option (Option Urn)
  | 0, _ => none
  | fuel + 1, current =>
      match result.parentOf.get current with
      | none => some none
      | some parent =>
          if parent ∈ result.urnsPresent then walkUp fuel parent else some (some parent)

/-- The missing ancestors that the walks from some nodes come to. -/
def missingAncestors (fuel : Nat) : List Urn → Option (List Urn)
  | [] => some []
  | urn :: rest =>
      match result.walkUp fuel urn with
      | none => none
      | some found => (missingAncestors fuel rest).map fun missing => found.toList ++ missing

end TraceResult

namespace InvariantCheck

variable (check : InvariantCheck) (regime : String) (result : TraceResult)

def message (missing : List Urn) : String :=
  s!"trace_invariant_violation regime={regime} focus={result.focus.urn} " ++
    s!"missing_ancestors={missing.length} sample=" ++ check.printed (missing.take 5)

def validateAncestorChain (fuel : Nat) : Option CheckOutcome :=
  (result.missingAncestors fuel (check.listed result.urnsPresent)).map fun missing =>
    if missing = [] then .silent
    else if check.invariantStrict then .raised (check.message regime result missing)
    else .warned (check.message regime result missing)

end InvariantCheck

namespace TraceResult

variable {result : TraceResult} {urn parent : Urn} {fuel more : Nat} {urns : List Urn}

/-- Some containment edge leads from the parent to the child. -/
def HasParent (result : TraceResult) (child parent : Urn) : Prop :=
  ∃ edge ∈ result.containmentEdges, edge.targetUrn = child ∧ edge.sourceUrn = parent

/-- The last containment edge to the child is from this parent. -/
def LastParent (result : TraceResult) (child parent : Urn) : Prop :=
  result.parentOf.get child = some parent

/-- One step of a walk that goes on. -/
def Climbs (result : TraceResult) (child parent : Urn) : Prop :=
  result.LastParent child parent ∧ parent ∈ result.urnsPresent

theorem LastParent.hasParent (last : result.LastParent urn parent) :
    result.HasParent urn parent := by
  have kept (edges : List GraphEdge) (parents : OrderedMap Urn Urn) :
      (edges.foldl (fun parents edge => parents.set edge.targetUrn edge.sourceUrn) parents).get
        urn = some parent →
      (∃ edge ∈ edges, edge.targetUrn = urn ∧ edge.sourceUrn = parent) ∨
        parents.get urn = some parent := by
    induction edges generalizing parents with
    | nil => exact .inr
    | cons edge rest ih =>
        intro found
        obtain ⟨later, member, ends⟩ | found := ih _ found
        · exact .inl ⟨later, List.mem_cons_of_mem edge member, ends⟩
        · rw [OrderedMap.get_set] at found
          split at found
          · rename_i here
            exact .inl ⟨edge, List.mem_cons_self, here, Option.some.inj found⟩
          · exact .inr found
  obtain named | found := kept _ _ last
  · exact named
  · cases found

theorem walkUp_mono (enough : fuel ≤ more) {found : Option Urn}
    (ends : result.walkUp fuel urn = some found) : result.walkUp more urn = some found := by
  induction fuel generalizing urn more with
  | zero => cases ends
  | succ fuel ih =>
      obtain ⟨more, rfl⟩ := Nat.exists_eq_succ_of_ne_zero (Nat.ne_of_gt (Nat.lt_of_lt_of_le
        (Nat.succ_pos fuel) enough))
      rw [walkUp] at ends ⊢
      split at ends
      · exact ends
      · split at ends
        · rename_i present
          rw [if_pos present]
          exact ih (Nat.le_of_succ_le_succ enough) ends
        · rename_i absent
          rw [if_neg absent]
          exact ends

/-- A walk from a node on a loop never ends. -/
theorem walkUp_loop (loop : Relation.TransGen result.Climbs urn urn) (fuel : Nat) :
    result.walkUp fuel urn = none := by
  induction fuel generalizing urn with
  | zero => rfl
  | succ fuel ih =>
      obtain ⟨next, ⟨last, present⟩, path⟩ := Relation.TransGen.head'_iff.mp loop
      rw [walkUp, last]
      simp only [if_pos present]
      exact ih (Relation.TransGen.tail' path ⟨last, present⟩)

theorem walkUp_ends (loopless : ∀ urn, ¬ Relation.TransGen result.Climbs urn urn) (urn : Urn) :
    ∃ fuel found, result.walkUp fuel urn = some found := by
  have finite : {urn | urn ∈ result.urnsPresent}.Finite := List.finite_toSet _
  apply induction_of_loopless (fun urn => ∃ fuel found, result.walkUp fuel urn = some found)
    finite (fun _ _ climbs => climbs.2) loopless
  intro urn ih
  cases parented : result.parentOf.get urn with
  | none => exact ⟨1, none, by rw [walkUp, parented]⟩
  | some parent =>
      by_cases present : parent ∈ result.urnsPresent
      · obtain ⟨fuel, found, ends⟩ := ih parent ⟨parented, present⟩
        refine ⟨fuel + 1, found, ?_⟩
        rw [walkUp, parented]
        simp only [if_pos present, ends]
      · refine ⟨1, some parent, ?_⟩
        rw [walkUp, parented]
        simp only [if_neg present]

theorem missingAncestors_ends (ends : ∀ urn, ∃ fuel found, result.walkUp fuel urn = some found)
    (urns : List Urn) : ∃ fuel missing, result.missingAncestors fuel urns = some missing := by
  have mono {fuel more : Nat} (enough : fuel ≤ more) {urns missing : List Urn}
      (ended : result.missingAncestors fuel urns = some missing) :
      result.missingAncestors more urns = some missing := by
    induction urns generalizing missing with
    | nil => exact ended
    | cons urn rest ih =>
        rw [missingAncestors] at ended ⊢
        cases walked : result.walkUp fuel urn with
        | none => simp [walked] at ended
        | some found =>
            rw [walked] at ended
            rw [walkUp_mono enough walked]
            obtain ⟨others, collected, rfl⟩ := Option.map_eq_some_iff.mp ended
            exact Option.map_eq_some_iff.mpr ⟨others, ih collected, rfl⟩
  induction urns with
  | nil => exact ⟨0, [], rfl⟩
  | cons urn rest ih =>
      obtain ⟨first, found, walked⟩ := ends urn
      obtain ⟨later, others, collected⟩ := ih
      refine ⟨max first later, found.toList ++ others, ?_⟩
      rw [missingAncestors, walkUp_mono (Nat.le_max_left first later) walked]
      exact Option.map_eq_some_iff.mpr ⟨others, mono (Nat.le_max_right first later) collected, rfl⟩

/-- A walk from a present node finds a missing ancestor above some present node. -/
theorem lastParent_of_walkUp (present : urn ∈ result.urnsPresent)
    (found : result.walkUp fuel urn = some (some parent)) :
    ∃ child ∈ result.urnsPresent, result.LastParent child parent ∧
      parent ∉ result.urnsPresent := by
  induction fuel generalizing urn with
  | zero => cases found
  | succ fuel ih =>
      rw [walkUp] at found
      split at found
      · cases found
      · rename_i above last
        split at found
        · rename_i next
          exact ih next found
        · rename_i absent
          cases found
          exact ⟨urn, present, last, absent⟩

theorem walked_of_mem {missing : List Urn}
    (collected : result.missingAncestors fuel urns = some missing) (member : urn ∈ urns) :
    ∃ found, result.walkUp fuel urn = some found := by
  induction urns generalizing missing with
  | nil => cases member
  | cons first rest ih =>
      rw [missingAncestors] at collected
      cases walked : result.walkUp fuel first with
      | none => simp [walked] at collected
      | some found =>
          rw [walked] at collected
          obtain ⟨others, ended, _⟩ := Option.map_eq_some_iff.mp collected
          obtain rfl | later := List.mem_cons.mp member
          · exact ⟨found, walked⟩
          · exact ih ended later

theorem missingAncestors_ne_nil {missing : List Urn}
    (collected : result.missingAncestors fuel urns = some missing) :
    missing ≠ [] ↔ ∃ urn ∈ urns, ∃ parent, result.walkUp fuel urn = some (some parent) := by
  induction urns generalizing missing with
  | nil =>
      cases collected
      simp
  | cons urn rest ih =>
      rw [missingAncestors] at collected
      cases walked : result.walkUp fuel urn with
      | none => simp [walked] at collected
      | some found =>
          rw [walked] at collected
          obtain ⟨others, ended, rfl⟩ := Option.map_eq_some_iff.mp collected
          cases found with
          | none => simpa [walked] using ih ended
          | some parent => simp [walked]

/-- The check finds something just if the last edge to a present node is from an absent one. -/
theorem missingAncestors_found {missing : List Urn} (listed : urns.Perm result.urnsPresent)
    (collected : result.missingAncestors fuel urns = some missing) :
    missing ≠ [] ↔ ∃ child ∈ result.urnsPresent, ∃ parent, result.LastParent child parent ∧
      parent ∉ result.urnsPresent := by
  rw [missingAncestors_ne_nil collected]
  constructor
  · rintro ⟨urn, member, parent, found⟩
    obtain ⟨child, present, last, absent⟩ :=
      lastParent_of_walkUp (listed.mem_iff.mp member) found
    exact ⟨child, present, parent, last, absent⟩
  · rintro ⟨child, present, parent, last, absent⟩
    have member := listed.mem_iff.mpr present
    refine ⟨child, member, parent, ?_⟩
    obtain ⟨found, walked⟩ := walked_of_mem collected member
    cases fuel with
    | zero => cases walked
    | succ fuel =>
        rw [walkUp, last]
        simp only [if_neg absent]

/-- No node is its own ancestor, by the last edge to each, through nodes of the result. -/
def Loopless (result : TraceResult) : Prop :=
  ∀ urn, ¬ Relation.TransGen result.Climbs urn urn

/-- Some node of the result has a containment ancestor that is not there. -/
def LacksAncestor (result : TraceResult) : Prop :=
  ∃ urn ∈ result.urnsPresent, ∃ ancestor,
    Relation.TransGen result.HasParent urn ancestor ∧ ancestor ∉ result.urnsPresent

/-- The same for the chain that the last edge to each node makes. -/
def LacksChained (result : TraceResult) : Prop :=
  ∃ urn ∈ result.urnsPresent, ∃ ancestor,
    Relation.TransGen result.LastParent urn ancestor ∧ ancestor ∉ result.urnsPresent

/-- If an absent node is a parent of a present one, the last edge to some present node is from an
absent one. -/
def LastEdgesTell (result : TraceResult) : Prop :=
  (∃ child ∈ result.urnsPresent, ∃ parent, result.HasParent child parent ∧
    parent ∉ result.urnsPresent) →
  ∃ child ∈ result.urnsPresent, ∃ parent, result.LastParent child parent ∧
    parent ∉ result.urnsPresent

end TraceResult

namespace InvariantCheck

open TraceResult

variable {check : InvariantCheck} {regime : String} {result : TraceResult} {fuel : Nat}

theorem validateAncestorChain_ends_iff :
    (∃ fuel outcome, check.validateAncestorChain regime result fuel = some outcome) ↔
      result.Loopless := by
  constructor
  · rintro ⟨fuel, outcome, ended⟩ urn loop
    obtain ⟨missing, collected, _⟩ := Option.map_eq_some_iff.mp ended
    have present : urn ∈ result.urnsPresent := by
      obtain ⟨_, _, climbs⟩ := Relation.TransGen.tail'_iff.mp loop
      exact climbs.2
    obtain ⟨found, walked⟩ := walked_of_mem collected ((check.listed_perm _).mem_iff.mpr present)
    rw [walkUp_loop loop] at walked
    cases walked
  · intro loopless
    obtain ⟨fuel, missing, collected⟩ := missingAncestors_ends (walkUp_ends loopless)
      (check.listed result.urnsPresent)
    exact ⟨fuel, _, by rw [validateAncestorChain, collected, Option.map_some]⟩

theorem validateAncestorChain_reports {outcome : CheckOutcome}
    (ended : check.validateAncestorChain regime result fuel = some outcome) :
    outcome ≠ .silent ↔ ∃ child ∈ result.urnsPresent, ∃ parent, result.LastParent child parent ∧
      parent ∉ result.urnsPresent := by
  obtain ⟨missing, collected, rfl⟩ := Option.map_eq_some_iff.mp ended
  rw [← missingAncestors_found (check.listed_perm _) collected]
  by_cases empty : missing = []
  · simp [empty]
  · rw [if_neg empty]
    split <;> simp [empty]

variable (check regime result)

/-- The check ends, and reports something just if an ancestor of some node is missing. -/
def ChecksAncestors : Prop :=
  ∃ fuel outcome, check.validateAncestorChain regime result fuel = some outcome ∧
    (outcome ≠ .silent ↔ result.LacksAncestor)

theorem checksAncestors_iff :
    check.ChecksAncestors regime result ↔ result.Loopless ∧ result.LastEdgesTell := by
  constructor
  · rintro ⟨fuel, outcome, ended, reports⟩
    refine ⟨validateAncestorChain_ends_iff.mp ⟨fuel, outcome, ended⟩, ?_⟩
    intro absent
    exact (validateAncestorChain_reports ended).mp (reports.mpr (leaves_iff.mpr absent))
  · intro ⟨loopless, tells⟩
    obtain ⟨fuel, outcome, ended⟩ : ∃ fuel outcome,
        check.validateAncestorChain regime result fuel = some outcome :=
      validateAncestorChain_ends_iff.mpr loopless
    refine ⟨fuel, outcome, ended, (validateAncestorChain_reports ended).trans ?_⟩
    constructor
    · rintro ⟨child, present, parent, last, absent⟩
      exact leaves_iff.mpr ⟨child, present, parent, last.hasParent, absent⟩
    · exact fun lacks => tells (leaves_iff.mp lacks)

/-- By the last edge to each node alone, the check is right if it ends. -/
theorem checksChain_iff :
    (∃ fuel outcome, check.validateAncestorChain regime result fuel = some outcome ∧
      (outcome ≠ .silent ↔ result.LacksChained)) ↔ result.Loopless := by
  rw [← validateAncestorChain_ends_iff]
  constructor
  · exact fun ⟨fuel, outcome, ended, _⟩ => ⟨fuel, outcome, ended⟩
  · intro ⟨fuel, outcome, ended⟩
    exact ⟨fuel, outcome, ended, (validateAncestorChain_reports ended).trans leaves_iff.symm⟩

end InvariantCheck

/-- The check in production. -/
def lenientCheck : InvariantCheck where
  invariantStrict := false
  listed := id
  listed_perm := List.Perm.refl
  printed urns := "[" ++ ", ".intercalate (urns.map fun urn => "'" ++ urn ++ "'") ++ "]"

def containmentEdge (parent child : Urn) : GraphEdge :=
  { id := parent ++ child, sourceUrn := parent, targetUrn := child, edgeType := "CONTAINS"
    sourceEdgeTypes := [], weight := 1 }

/-- Two nodes that contain each other. -/
def circularResult : TraceResult where
  nodes := [⟨"a", "schema"⟩, ⟨"b", "table"⟩]
  edges := []
  containmentEdges := [containmentEdge "a" "b", containmentEdge "b" "a"]
  upstreamUrns := []
  downstreamUrns := []
  focus := ⟨"b", 1, "table"⟩
  effectiveLevel := 1
  isInherited := false
  inheritedFromUrn := none
  truncated := false
  truncationReason := none

theorem circular_not_checked : ¬ lenientCheck.ChecksAncestors "skeleton" circularResult := by
  rintro ⟨fuel, outcome, ended, _⟩
  have up : circularResult.Climbs "b" "a" := ⟨by rw [TraceResult.LastParent]; decide, by decide⟩
  have back : circularResult.Climbs "a" "b" := ⟨by rw [TraceResult.LastParent]; decide, by decide⟩
  exact InvariantCheck.validateAncestorChain_ends_iff.mp ⟨fuel, outcome, ended⟩ "b"
    (.tail (.single up) back)

end Univiz.Trace
