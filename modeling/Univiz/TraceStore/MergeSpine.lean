import Univiz.Data.Trails
import Univiz.TraceStore.Hidden

namespace Univiz.TraceStore

open Univiz.Canvas Univiz.Data

/-! `computeTraceMergeSpine`: the ancestors over which new participants of a trace come to the
nodes that the canvas already places. -/

structure SpineInput where
  participantUrns : List String
  /-- From parent to child. -/
  containmentEdges : List (String × String)
  knownAssignedUrns : Finset String
deriving DecidableEq

structure SpineResult where
  spineUrns : Finset String
  unreachableRoots : Finset String
deriving DecidableEq

namespace SpineInput

variable (rounds : Nat) (input : SpineInput)

/-- The edges without those that have an empty end. -/
def links : List (String × String) :=
  input.containmentEdges.filter fun edge => edge.1 ≠ "" ∧ edge.2 ≠ ""

def childToParent : OrderedMap String String := lastParents input.links

def stops (cursor : String) : Bool := cursor = "" ∨ cursor ∈ input.knownAssignedUrns

def addSpine (result : SpineResult) (urn : String) : Option SpineResult :=
  if urn = "" ∨ urn ∈ input.knownAssignedUrns then some result
  else
    -- the participant itself seeds the visited nodes
    (trail input.childToParent.get input.stops rounds [urn] (input.childToParent.get urn)).map
      fun (chain, cursor) =>
        let spineUrns := result.spineUrns ∪ chain.toFinset
        if cursor.any fun cursor => cursor ∈ input.knownAssignedUrns then
          { result with spineUrns }
        else
          { spineUrns, unreachableRoots := insert (chain.getLast?.getD urn) result.unreachableRoots }

def computeTraceMergeSpine : Option SpineResult :=
  input.participantUrns.foldlM (input.addSpine rounds) ⟨∅, ∅⟩

section Spine

variable (parent : String → Option String) (known : Finset String)

/-- An ancestor below the first that is known. -/
def OnSpine (urn above : String) : Prop :=
  Relation.TransGen (fun child above => Above parent child above ∧ above ∉ known) urn above ∧
    above ≠ urn

def Unanchored (urn : String) : Prop :=
  ∀ above, Relation.TransGen (Above parent) urn above → above ∉ known

/-- The last of the ancestors, or the participant itself if it has none. -/
def Topmost (urn root : String) : Prop :=
  ∃ line, IsLine parent urn line ∧ root = line.getLast?.getD urn

end Spine

/-- The function ends with what the ancestors by the last edges say, in each order of the
participants, of which some are new. -/
def ComputesSpine (edges : List (String × String)) (isNew : String → Prop) : Prop :=
  ∃ enough result,
    (∀ more participants, participants.Perm input.participantUrns →
      ({ input with participantUrns := participants }).computeTraceMergeSpine (enough + more) =
        some result) ∧
    (∀ above, above ∈ result.spineUrns ↔ ∃ urn ∈ input.participantUrns, isNew urn ∧
      OnSpine (lastSource edges) input.knownAssignedUrns urn above) ∧
    ∀ root, root ∈ result.unreachableRoots ↔ ∃ urn ∈ input.participantUrns, isNew urn ∧
      Unanchored (lastSource edges) input.knownAssignedUrns urn ∧
      Topmost (lastSource edges) urn root

/-- No guard skips the participant. -/
def IsNew (urn : String) : Prop := urn ≠ "" ∧ urn ∉ input.knownAssignedUrns

variable {input} {urn child above : String} {participants : List String}

theorem get_childToParent : input.childToParent.get = lastSource input.links := by
  funext child
  exact get_lastParents

theorem ne_of_link (link : Above (lastSource input.links) child above) :
    child ≠ "" ∧ above ≠ "" := by
  have member : (above, child) ∈ input.links := contained_of_lastSource link
  simp only [links, List.mem_filter, decide_eq_true_eq] at member
  exact ⟨member.2.2, member.2.1⟩

theorem passing_eq : Passing (lastSource input.links) input.stops = fun child above =>
    Above (lastSource input.links) child above ∧ above ∉ input.knownAssignedUrns := by
  funext child above
  refine propext (and_congr_right ?_)
  intro link
  simp only [stops, decide_eq_false_iff_not, (ne_of_link link).2, false_or]

theorem stops_iff (path : Relation.TransGen (Above (lastSource input.links)) urn above) :
    input.stops above = true ↔ above ∈ input.knownAssignedUrns := by
  obtain ⟨child, _, link⟩ := Relation.TransGen.tail'_iff.mp path
  simp only [stops, decide_eq_true_eq, (ne_of_link link).2, false_or]

/-- The walk comes to a known node just if one is above the participant. -/
theorem anchored_iff {chain : List String} {cursor : Option String} (isNew : input.IsNew urn)
    (walked : Trail (lastSource input.links) input.stops [urn] (lastSource input.links urn)
      chain cursor) :
    (cursor.any fun cursor => cursor ∈ input.knownAssignedUrns) = true ↔
      ¬ Unanchored (lastSource input.links) input.knownAssignedUrns urn := by
  have free : input.stops urn = false := by
    simp only [stops, decide_eq_false_iff_not, isNew.1, isNew.2, or_self, not_false_eq_true]
  have stopped : (∃ found ∈ cursor, input.stops found = true) ↔
      ∃ above, Relation.TransGen (Above (lastSource input.links)) urn above ∧
        input.stops above = true := walked.stopped_iff free
  simp only [Unanchored, not_forall, not_not, Option.any_eq_true, decide_eq_true_eq]
  constructor
  · rintro ⟨found, isLast, known⟩
    obtain ⟨above, path, stops⟩ := stopped.mp ⟨found, isLast, by simp [SpineInput.stops, known]⟩
    exact ⟨above, path, (stops_iff path).mp stops⟩
  · rintro ⟨above, path, known⟩
    obtain ⟨found, isLast, stops⟩ := stopped.mpr ⟨above, path, (stops_iff path).mpr known⟩
    exact ⟨found, isLast, (stops_iff (walked.last_above isLast)).mp stops⟩

/-- A number of rounds that suffices for each walk. -/
def enough (input : SpineInput) : Nat := input.childToParent.entries.length + 2

/-- Each participant adds something of its own, whatever there is. -/
theorem exists_contribution (input : SpineInput) (urn : String) :
    ∃ added : SpineResult,
      (∀ more result, input.addSpine (input.enough + more) result urn =
        some ⟨result.spineUrns ∪ added.spineUrns,
          result.unreachableRoots ∪ added.unreachableRoots⟩) ∧
      (∀ above, above ∈ added.spineUrns ↔ input.IsNew urn ∧
        OnSpine (lastSource input.links) input.knownAssignedUrns urn above) ∧
      ∀ root, root ∈ added.unreachableRoots ↔ input.IsNew urn ∧
        Unanchored (lastSource input.links) input.knownAssignedUrns urn ∧
        Topmost (lastSource input.links) urn root := by
  by_cases skipped : urn = "" ∨ urn ∈ input.knownAssignedUrns
  · have old : ¬ input.IsNew urn := not_and_or.mpr (skipped.imp not_not.mpr not_not.mpr)
    refine ⟨⟨∅, ∅⟩, ?_, by simp [old], by simp [old]⟩
    intro more result
    simp only [addSpine, if_pos skipped, Finset.union_empty]
  · have isNew : input.IsNew urn := not_or.mp skipped
    have known : ∀ node, input.childToParent.get node ≠ none →
        node ∈ input.childToParent.entries.map Prod.fst := by
      intro node climbs
      obtain ⟨above, link⟩ := Option.ne_none_iff_exists'.mp climbs
      exact List.mem_map_of_mem (OrderedMap.get_eq_some.mp link)
    obtain ⟨⟨chain, cursor⟩, walks⟩ : ∃ result, ∀ more, trail input.childToParent.get input.stops
        ((input.childToParent.entries.map Prod.fst).length + 2 + more) [urn]
        (input.childToParent.get urn) = some result := exists_trail known urn
    rw [List.length_map] at walks
    have walked := trail_spec (walks 0)
    rw [get_childToParent] at walked
    have anchored := anchored_iff isNew walked
    have spine (above : String) : above ∈ chain.toFinset ↔
        OnSpine (lastSource input.links) input.knownAssignedUrns urn above := by
      rw [List.mem_toFinset, walked.mem_iff, passing_eq, OnSpine]
    by_cases reached : (cursor.any fun cursor => cursor ∈ input.knownAssignedUrns) = true
    · refine ⟨⟨chain.toFinset, ∅⟩, ?_, by simp only [spine, isNew, true_and, implies_true], ?_⟩
      · intro more result
        simp only [addSpine, if_neg skipped, enough, walks, Option.map_some, if_pos reached,
          Finset.union_empty]
      · intro root
        simp only [Finset.notMem_empty, anchored.mp reached, false_and, and_false]
    · have unanchored := not_not.mp (mt anchored.mpr reached)
      refine ⟨⟨chain.toFinset, {chain.getLast?.getD urn}⟩, ?_,
        by simp only [spine, isNew, true_and, implies_true], ?_⟩
      · intro more result
        simp only [addSpine, if_neg skipped, enough, walks, Option.map_some, if_neg reached,
          Finset.insert_eq, Finset.union_comm]
      · intro root
        have isLine : IsLine (lastSource input.links) urn chain := by
          refine walked.isLine ?_
          intro found isLast
          by_contra stops
          rw [Bool.not_eq_false, stops_iff (walked.last_above isLast)] at stops
          exact reached (by simpa only [Option.any_eq_true, decide_eq_true_eq] using
            ⟨found, isLast, stops⟩)
        simp only [Finset.mem_singleton, isNew, unanchored, true_and]
        constructor
        · intro isTop
          exact ⟨chain, isLine, isTop⟩
        · rintro ⟨line, isLine', isTop⟩
          rw [isTop, isLine'.unique isLine]

theorem exists_added (input : SpineInput) (participants : List String) (start : SpineResult) :
    ∃ result : SpineResult,
      (∀ more, participants.foldlM (input.addSpine (input.enough + more)) start = some result) ∧
      (∀ above, above ∈ result.spineUrns ↔ above ∈ start.spineUrns ∨
        ∃ urn ∈ participants, input.IsNew urn ∧
          OnSpine (lastSource input.links) input.knownAssignedUrns urn above) ∧
      ∀ root, root ∈ result.unreachableRoots ↔ root ∈ start.unreachableRoots ∨
        ∃ urn ∈ participants, input.IsNew urn ∧
          Unanchored (lastSource input.links) input.knownAssignedUrns urn ∧
          Topmost (lastSource input.links) urn root := by
  induction participants generalizing start with
  | nil => exact ⟨start, fun _ => rfl, by simp, by simp⟩
  | cons urn rest ih =>
      obtain ⟨added, adds, spine, roots⟩ := exists_contribution input urn
      obtain ⟨result, ran, spine', roots'⟩ := ih
        ⟨start.spineUrns ∪ added.spineUrns, start.unreachableRoots ∪ added.unreachableRoots⟩
      refine ⟨result, ?_, ?_, ?_⟩
      · intro more
        rw [List.foldlM_cons, adds]
        exact ran more
      · intro above
        simp only [spine', Finset.mem_union, spine, List.mem_cons, exists_eq_or_imp, or_assoc]
      · intro root
        simp only [roots', Finset.mem_union, roots, List.mem_cons, exists_eq_or_imp, or_assoc]

/-- With the edges that have both ends, and without the empty participant. -/
theorem computeTraceMergeSpine_exact (input : SpineInput) :
    input.ComputesSpine input.links input.IsNew := by
  obtain ⟨result, ran, spine, roots⟩ := exists_added input input.participantUrns ⟨∅, ∅⟩
  simp only [Finset.notMem_empty, false_or] at spine roots
  refine ⟨input.enough, result, ?_, spine, roots⟩
  intro more participants perm
  obtain ⟨other, ran', spine', roots'⟩ := exists_added input participants ⟨∅, ∅⟩
  simp only [Finset.notMem_empty, false_or] at spine' roots'
  have same : other = result := by
    cases other
    cases result
    simp only [SpineResult.mk.injEq]
    constructor
    · ext above
      rw [spine', spine]
      simp only [perm.mem_iff]
    · ext root
      rw [roots', roots]
      simp only [perm.mem_iff]
  rw [← same]
  exact ran' more

end SpineInput

/-- One participant, which is empty. -/
def emptyParticipant : SpineInput := ⟨[""], [], ∅⟩

/-- It is not known and nothing is above it, but it is skipped. -/
theorem emptyParticipant_skipped :
    ¬ emptyParticipant.ComputesSpine emptyParticipant.containmentEdges
      (· ∉ emptyParticipant.knownAssignedUrns) := by
  rintro ⟨enough, result, ran, _, roots⟩
  have top : "" ∈ result.unreachableRoots := by
    refine (roots "").mpr ⟨"", List.mem_singleton_self "", Finset.notMem_empty "", ?_, ?_⟩
    · intro above _
      exact Finset.notMem_empty above
    · refine ⟨[], ⟨.singleton _, List.nodup_singleton _, ?_⟩, rfl⟩
      intro above path
      obtain ⟨_, link, _⟩ := Relation.TransGen.head'_iff.mp path
      cases link
  have ended := ran 0 [""] (.refl _)
  cases ended
  exact Finset.notMem_empty "" top

end Univiz.TraceStore
