import Univiz.Providers.Additions

namespace Univiz.Providers

open Univiz.Data

/-! `remove_lineage_edge`, `purge_all` and runs of all three operations. -/

variable {fault : Option Fault} {backend : Backend} {pair : PairKey} {edgeId edgeType : String}
  {pairs : List PairKey}

theorem mix_eraseMember {landed : PairKey → Bool} (lost : landed pair = false) :
    backend.mix landed (backend.eraseMember pair edgeId) = backend := by
  ext other : 2
  · by_cases same : other = pair
    · subst same
      simp [Backend.mix, lost]
    · simp [Backend.mix, Backend.eraseMember, same]
  · simp [Backend.mix, Backend.eraseMember]
  · simp [Backend.mix, Backend.eraseMember]

theorem eraseMember_of_notMem (absent : edgeId ∉ backend.members pair) :
    backend.eraseMember pair edgeId = backend := by
  rw [Backend.eraseMember, Finset.erase_eq_of_notMem absent, Function.update_eq_self]

theorem mix_setEdge {landed : PairKey → Bool} {edge : Option AggregatedEdge}
    (done : landed pair = true) :
    backend.mix landed (backend.setEdge pair edge) = backend.setEdge pair edge := by
  ext other : 2
  · simp [Backend.mix, Backend.setEdge]
  · simp [Backend.mix, Backend.setEdge]
  · by_cases same : other = pair
    · subst same
      simp only [Backend.mix, done, if_true]
    · simp [Backend.mix, Backend.setEdge, same]

theorem eraseMember_setEdge_settled {edge : Option AggregatedEdge} (settled : backend.Settled)
    (written : edge.map AggregatedEdge.weight =
      Tally.countOf ((backend.members pair).erase edgeId)) :
    ((backend.eraseMember pair edgeId).setEdge pair edge).Settled := by
  apply settled_of_represents
  apply settled.represents.next
  · exact fun _ _ => rfl
  · intro other _
    by_cases same : other = pair
    · subst same
      left
      simpa [Backend.tally, Backend.setEdge, Backend.eraseMember] using written
    · right
      simp [Backend.tally, Backend.setEdge, Backend.eraseMember, same]

/-- The calls for a pair that has the edge may raise before the member is gone or
after the AGGREGATED edge is written. -/
structure LossHarmless (contributors : Nat) (pair : PairKey) (fault : Fault) : Prop where
  remove : fault.call = .remove pair → fault.landed pair = false
  count : fault.call ≠ .count pair
  edgeTypes : fault.call = .edgeTypes pair → contributors = 1
  delete : fault.call = .deleteAggregatedEdge pair → contributors = 1 → fault.landed pair = true
  update : fault.call = .updateAggregatedEdge pair → contributors ≠ 1 → fault.landed pair = true

def RemoveHarmless (backend : Backend) (edgeId : String) (pairs : List PairKey) (fault : Fault) :
    Prop :=
  ∀ pair ∈ pairs, edgeId ∈ backend.members pair →
    LossHarmless (backend.members pair).card pair fault

theorem map_weight_update (types : Finset String) (settled : backend.Settled)
    (known : edgeId ∈ backend.members pair)
    (kept : ((backend.members pair).erase edgeId).card ≠ 0) :
    ((backend.edges pair).map fun _ =>
        AggregatedEdge.mk ((backend.members pair).erase edgeId).card types).map
      AggregatedEdge.weight = Tally.countOf ((backend.members pair).erase edgeId) := by
  have present := (settled pair).present_iff.mpr ⟨edgeId, known⟩
  obtain ⟨weight, published⟩ := Option.isSome_iff_exists.mp present
  obtain ⟨edge, found, -⟩ := Option.map_eq_some_iff.mp published
  rw [found, Tally.countOf, if_neg kept]
  rfl

theorem removePair_settled (settled : backend.Settled)
    (harmless : ∀ raised, fault = some raised → edgeId ∈ backend.members pair →
      LossHarmless (backend.members pair).card pair raised) :
    Ends (removePair fault edgeId pair) backend
      (fun _ after => after.Settled ∧
        ∀ other, other ≠ pair → after.members other = backend.members other)
      Backend.Settled := by
  simp only [removePair, ends_bind]
  by_cases known : edgeId ∈ backend.members pair
  · have harmless : ∀ raised, fault = some raised →
        LossHarmless (backend.members pair).card pair raised :=
      fun raised failed => harmless raised failed known
    have frame : ∀ (edge : Option AggregatedEdge) (other : PairKey), other ≠ pair →
        ((backend.eraseMember pair edgeId).setEdge pair edge).members other =
          backend.members other :=
      fun _ _ distinct => Function.update_of_ne distinct _ _
    have erased : (backend.eraseMember pair edgeId).members pair =
        (backend.members pair).erase edgeId := Function.update_self _ _ _
    have card := Finset.card_erase_of_mem known
    have positive : 0 < (backend.members pair).card := Finset.card_pos.mpr ⟨edgeId, known⟩
    apply ends_request
    · intro _
      simp only [known, decide_true, if_true, ends_bind]
      apply ends_request _ fun landed failed => absurd rfl (harmless _ failed).count
      intro _
      simp only [id, erased]
      by_cases emptied : ((backend.members pair).erase edgeId).card = 0
      · simp only [emptied, if_true]
        have written : (none : Option AggregatedEdge).map AggregatedEdge.weight =
            Tally.countOf ((backend.members pair).erase edgeId) := (if_pos emptied).symm
        have done := eraseMember_setEdge_settled settled written
        apply ends_request
        · exact fun _ => ⟨done, frame none⟩
        · intro landed failed
          rw [mix_setEdge ((harmless _ failed).delete rfl (by omega))]
          exact done
      · simp only [emptied, if_false, ends_bind]
        apply ends_request _ fun landed failed =>
          absurd ((harmless _ failed).edgeTypes rfl) (by omega)
        intro _
        have done := eraseMember_setEdge_settled settled (map_weight_update
          ((backend.eraseMember pair edgeId).observedTypes pair) settled known emptied)
        apply ends_request
        · exact fun _ => ⟨done, frame _⟩
        · intro landed failed
          rw [id, mix_setEdge ((harmless _ failed).update rfl (by omega))]
          exact done
    · intro landed failed
      rw [mix_eraseMember ((harmless _ failed).remove rfl)]
      exact settled
  · apply ends_request
    · intro _
      simp only [known, decide_false, Bool.false_eq_true, if_false, eraseMember_of_notMem known]
      exact ⟨settled, fun _ _ => rfl⟩
    · intro landed _
      rw [eraseMember_of_notMem known, mix_self]
      exact settled

theorem removePairs_settled (distinct : pairs.Nodup) (settled : backend.Settled)
    (harmless : ∀ raised, fault = some raised → RemoveHarmless backend edgeId pairs raised) :
    Ends (removePairs fault edgeId pairs) backend (fun _ after => after.Settled)
      Backend.Settled := by
  induction pairs generalizing backend with
  | nil => exact settled
  | cons pair rest ih =>
      obtain ⟨fresh, restDistinct⟩ := List.nodup_cons.mp distinct
      simp only [removePairs, ends_bind]
      have first := removePair_settled settled fun raised failed =>
        harmless raised failed pair List.mem_cons_self
      apply first.mono _ fun _ => id
      intro _ after ⟨afterSettled, same⟩
      apply ih restDistinct afterSettled
      intro raised failed other inRest
      rw [same other fun equal => fresh (equal ▸ inRest)]
      exact harmless raised failed other (List.mem_cons_of_mem _ inRest)

theorem removeLineageEdge_settled {chains : String → List String} {sourceUrn targetUrn : String}
    (settled : backend.Settled)
    (harmless : ∀ raised, fault = some raised →
      RemoveHarmless backend edgeId (edgePairs chains sourceUrn targetUrn) raised) :
    Ends (removeLineageEdge fault edgeId chains sourceUrn targetUrn) backend
      (fun _ after => after.Settled) Backend.Settled := by
  simp only [removeLineageEdge, ends_bind]
  apply ends_request _ fun landed _ => (mix_self landed).symm ▸ settled
  intro _
  apply ends_request _ fun landed _ => (mix_self landed).symm ▸ settled
  intro _
  exact removePairs_settled (crossPairs_nodup _ _) settled harmless

/-- The pairs whose edges a purge deletes, cancelled or not. -/
def edgesGone (fault : Option Fault) (cancelled : Option (PairKey → Bool)) (pair : PairKey) :
    Bool :=
  (cancelled.getD fun _ => true) pair &&
    match fault with
    | some ⟨.purgeAll, landed⟩ => landed pair
    | _ => true

/-- The pairs whose sets a purge drops. -/
def setsDropped (fault : Option Fault) (pair : PairKey) : Bool :=
  match fault with
  | some ⟨.purgeAll, _⟩ => false
  | some ⟨.purgeNamespace, landed⟩ => landed pair
  | _ => true

/-- What a purge leaves. -/
def Purged (before after : Backend) (gone dropped : PairKey → Bool) : Prop :=
  ∀ pair, after.edges pair = (if gone pair then none else before.edges pair) ∧
    after.members pair = if dropped pair then ∅ else before.members pair

theorem purgeAll_ends {cancelled : Option (PairKey → Bool)} :
    Ends (purgeAll fault cancelled) backend
      (fun _ after => Purged backend after (edgesGone fault cancelled) (setsDropped fault))
      fun after => Purged backend after (edgesGone fault cancelled) (setsDropped fault) := by
  simp only [purgeAll, ends_bind, ends_tryCatch]
  apply ends_request
  · intro deleted
    have gone : ∀ pair, edgesGone fault cancelled pair = (cancelled.getD fun _ => true) pair := by
      intro pair
      unfold edgesGone
      split
      · exact absurd rfl (deleted _)
      · rw [Bool.and_true]
    apply ends_request
    · intro dropped pair
      have all : setsDropped fault pair = true := by
        unfold setsDropped
        split
        · exact absurd rfl (deleted _)
        · exact absurd rfl (dropped _)
        · rfl
      simp only [gone, all, if_true, true_and]
    · intro landed failed pair
      rw [gone, failed]
      by_cases reached : landed pair = true
      · simp [setsDropped, Backend.mix, reached]
      · simp [setsDropped, Backend.mix, reached]
  · intro landed failed pair
    subst failed
    by_cases reached : landed pair = true
    · simp [edgesGone, setsDropped, Backend.mix, reached]
    · simp [edgesGone, setsDropped, Backend.mix, reached]

/-- A purge keeps a backend settled exactly when it drops the sets of the pairs
whose edges it deletes. -/
def PurgeHarmless (backend : Backend) (cancelled : Option (PairKey → Bool))
    (fault : Option Fault) : Prop :=
  ∀ pair, (backend.members pair).Nonempty → edgesGone fault cancelled pair = setsDropped fault pair

theorem Purged.settled_iff {after : Backend} {gone dropped : PairKey → Bool}
    (purged : Purged backend after gone dropped) (settled : backend.Settled) :
    after.Settled ↔ ∀ pair, (backend.members pair).Nonempty → gone pair = dropped pair := by
  apply forall_congr'
  intro pair
  have before : (backend.edges pair).map AggregatedEdge.weight =
      Tally.countOf (backend.members pair) := Tally.settledAt_iff.mp (settled pair)
  have weight : ∀ members : Finset String, after.members pair = members →
      (after.tally.SettledAt pair ↔
        (after.edges pair).map AggregatedEdge.weight = Tally.countOf members) := by
    intro members same
    rw [Tally.settledAt_iff, ← same]
    exact Iff.rfl
  obtain ⟨edges, members⟩ := purged pair
  rw [weight _ members, edges]
  by_cases empty : (backend.members pair).card = 0
  · rw [Tally.countOf, if_pos empty, Option.map_eq_none_iff] at before
    rw [Finset.card_eq_zero] at empty
    simp [before, empty, Tally.countOf]
  · have nonempty : (backend.members pair).Nonempty := Finset.card_pos.mp (Nat.pos_of_ne_zero empty)
    rw [Tally.countOf, if_neg empty] at before
    have absent : backend.members pair ≠ ∅ := nonempty.ne_empty
    cases gone pair <;> cases dropped pair <;>
      simp [before, nonempty, absent, Tally.countOf]

/-- The operations, each with what the resolver returns and the call that raises. -/
inductive Operation where
  | materialize (chains : String → List String) (sourceUrn targetUrn edgeId edgeType : String)
      (fault : Option Fault)
  | remove (chains : String → List String) (sourceUrn targetUrn edgeId : String)
      (fault : Option Fault)
  | purge (cancelled : Option (PairKey → Bool)) (fault : Option Fault)

/-- The backends, and whether the last operation has succeeded. -/
structure Progress where
  backend : Backend
  succeeded : Bool

def finish : EStateM.Result Unit Backend Unit → Progress
  | .ok _ backend => ⟨backend, true⟩
  | .error _ backend => ⟨backend, false⟩

namespace MaterializerConfig

variable (config : MaterializerConfig)

def method : Operation → Method Unit
  | .materialize chains sourceUrn targetUrn edgeId edgeType fault =>
      materializeLineageEdge fault edgeId edgeType config chains sourceUrn targetUrn
  | .remove chains sourceUrn targetUrn edgeId fault =>
      removeLineageEdge fault edgeId chains sourceUrn targetUrn
  | .purge cancelled fault => purgeAll fault cancelled

def step (progress : Progress) (operation : Operation) : Option Progress :=
  some (finish (config.method operation progress.backend))

/-- The operation cannot leave a set and its edge apart. -/
def Harmless (progress : Progress) : Operation → Prop
  | .materialize chains sourceUrn targetUrn edgeId _ fault => ∀ raised, fault = some raised →
      MaterializeHarmless config progress.backend edgeId (edgePairs chains sourceUrn targetUrn)
        raised
  | .remove chains sourceUrn targetUrn edgeId fault => ∀ raised, fault = some raised →
      RemoveHarmless progress.backend edgeId (edgePairs chains sourceUrn targetUrn) raised
  | .purge cancelled fault => PurgeHarmless progress.backend cancelled fault

end MaterializerConfig

def Operation.Repairs : Operation → Prop
  | .purge cancelled fault =>
      ∀ pair, edgesGone fault cancelled pair = true ∧ setsDropped fault pair = true
  | _ => False

variable {config : MaterializerConfig} {progress next : Progress} {operation : Operation}

theorem settled_of_ends {method : Method Unit}
    (ends : Ends method backend (fun _ after => after.Settled) Backend.Settled) :
    (finish (method backend)).backend.Settled := by
  unfold Ends at ends
  cases ran : method backend with
  | ok value after =>
      rw [ran] at ends
      exact ends
  | error raised after =>
      rw [ran] at ends
      exact ends

theorem step_settled (settled : progress.backend.Settled)
    (harmless : config.Harmless progress operation)
    (stepped : config.step progress operation = some next) : next.backend.Settled := by
  cases stepped
  apply settled_of_ends
  cases operation with
  | materialize chains sourceUrn targetUrn edgeId edgeType fault =>
      exact materializeLineageEdge_settled settled harmless
  | remove chains sourceUrn targetUrn edgeId fault =>
      exact removeLineageEdge_settled settled harmless
  | purge cancelled fault =>
      apply purgeAll_ends.mono
      · exact fun _ after purged => (purged.settled_iff settled).mpr harmless
      · exact fun after purged => (purged.settled_iff settled).mpr harmless

theorem step_repairs (repairs : operation.Repairs)
    (stepped : config.step progress operation = some next) : next.backend.Settled := by
  cases stepped
  apply settled_of_ends
  cases operation with
  | purge cancelled fault =>
      have settled : ∀ after, Purged progress.backend after (edgesGone fault cancelled)
          (setsDropped fault) → after.Settled := by
        intro after purged pair
        obtain ⟨edges, members⟩ := purged pair
        rw [if_pos (repairs pair).1] at edges
        rw [if_pos (repairs pair).2] at members
        rw [Tally.settledAt_iff]
        simp [Backend.tally, edges, members, Tally.countOf]
      exact purgeAll_ends.mono (fun _ => settled) settled
  | _ => exact repairs.elim

/-- Every set agrees with its edge if, from the beginning or from a full purge
on, every operation was harmless. -/
theorem operations_settled {before after : List Operation} {last : Progress}
    (repaired : before = [] ∨ ∃ earlier purge, before = earlier ++ [purge] ∧ purge.Repairs)
    (harmless : ∀ middle, run config.step ⟨.empty, true⟩ before = some middle →
      Meets config.step config.Harmless middle after)
    (ran : run config.step ⟨.empty, true⟩ (before ++ after) = some last) :
    last.backend.Settled := by
  obtain ⟨middle, reached, finished⟩ := run_append.mp ran
  have settled : middle.backend.Settled := by
    rcases repaired with rfl | ⟨earlier, purge, rfl, repairs⟩
    · cases reached
      exact fun pair => Tally.settledAt_iff.mpr rfl
    · obtain ⟨previous, -, purged⟩ := run_append.mp reached
      obtain ⟨next, stepped, done⟩ := run_cons.mp purged
      cases done
      exact step_repairs repairs stepped
  apply run_invariant (fun progress => progress.backend.Settled) _ settled
    (harmless middle reached) finished
  exact fun _ _ _ settled allowed stepped => step_settled settled allowed stepped

def defaultConfig : MaterializerConfig := ⟨1000, by decide⟩

/-- The edge `1` from `a` to `b`, without ancestors. -/
def materializeAB (fault : Option Fault) : Operation :=
  .materialize (fun urn => [urn]) "a" "b" "1" "FLOWS_TO" fault

/-- An edge, a purge that is cut off and a full one. -/
def purgedTwice : List Operation :=
  [materializeAB none, .purge none (some ⟨.purgeAll, fun _ => true⟩), .purge none none]

/-- The edge again: the first attempt fails in the first call that writes. -/
def addedTwice : List Operation :=
  [materializeAB (some ⟨.add ("a", "b"), fun _ => false⟩), materializeAB none]

theorem addedTwice_harmless (progress : Progress) :
    Meets defaultConfig.step defaultConfig.Harmless progress addedTwice := by
  have pairs : edgePairs (fun urn => [urn]) "a" "b" = [("a", "b")] := by decide
  constructor
  · intro raised failed
    cases failed
    rw [pairs]
    constructor
    · intro _
      constructor
      · intro earlier later split
        cases earlier with
        | nil => exact fun other member => nomatch member
        | cons head rest => simp at split
      · exact .inr rfl
    · exact fun chunk same => nomatch same
  · intro next _
    constructor
    · exact fun raised failed => nomatch failed
    · exact fun _ _ => True.intro

theorem operations_settled_retried :
    ∃ last, run defaultConfig.step ⟨.empty, true⟩ (purgedTwice ++ addedTwice) = some last ∧
      last.succeeded = true ∧ last.backend.Settled := by
  have repaired : purgedTwice = [] ∨
      ∃ earlier purge, purgedTwice = earlier ++ [purge] ∧ purge.Repairs :=
    .inr ⟨purgedTwice.take 2, .purge none none, rfl, fun _ => ⟨rfl, rfl⟩⟩
  obtain ⟨last, ran, succeeded⟩ := Option.map_eq_some_iff.mp
    (show (run defaultConfig.step ⟨.empty, true⟩ (purgedTwice ++ addedTwice)).map
      Progress.succeeded = some true by decide)
  exact ⟨last, ran, succeeded,
    operations_settled repaired (fun middle _ => addedTwice_harmless middle) ran⟩

/-- The upsert raises after the member was added, and the retry does nothing. -/
def upsertFailed : List Operation :=
  [materializeAB (some ⟨.upsertAggregatedEdges 0, fun _ => false⟩), materializeAB none]

theorem upsertFailed_not_repaired :
    ¬ ∀ (config : MaterializerConfig) (operations : List Operation) (last : Progress),
      run config.step ⟨.empty, true⟩ operations = some last → last.succeeded = true →
        last.backend.Settled := by
  intro always
  obtain ⟨last, ran, outcome⟩ := Option.map_eq_some_iff.mp
    (show (run defaultConfig.step ⟨.empty, true⟩ upsertFailed).map (fun last =>
      (last.succeeded, last.backend.edges ("a", "b"), last.backend.members ("a", "b"))) =
        some (true, none, {"1"}) by decide)
  obtain ⟨succeeded, missing, counted⟩ : last.succeeded = true ∧
      last.backend.edges ("a", "b") = none ∧ last.backend.members ("a", "b") = {"1"} := by
    simpa only [Prod.mk.injEq] using outcome
  have settled := always defaultConfig upsertFailed last ran succeeded ("a", "b")
  have present : ((last.backend.edges ("a", "b")).map AggregatedEdge.weight).isSome = true := by
    apply settled.present_iff.mpr
    simp only [Backend.tally, counted]
    exact Finset.singleton_nonempty "1"
  rw [missing] at present
  cases present

end Univiz.Providers
