import Univiz.Providers.Materializer

namespace Univiz.Providers

open Univiz.Data

/-! `materialize_lineage_edge` when a call raises.

All members are added before the first upsert.  A raise between the two leaves
sets without edges, and a later call finds the members there and upserts nothing.
-/

variable {fault : Option Fault} {backend : Backend} {pair : PairKey} {edgeId edgeType : String}
  {pairs : List PairKey}

/-- The members after `edgeId` was added to some pairs. -/
def Backend.WithMembers (before after : Backend) (pairs : List PairKey) (edgeId : String) : Prop :=
  after.edges = before.edges ∧ ∀ pair, after.members pair =
    if pair ∈ pairs then insert edgeId (before.members pair) else before.members pair

/-- One row for each pair that got a member, with the size of its set. -/
structure Collected (before after : Backend) (pairs : List PairKey) (edgeId : String)
    (rows : List Upsert) : Prop where
  with_members : before.WithMembers after pairs edgeId
  row_pairs : rows.map Upsert.pair = pairs.filter (edgeId ∉ before.members ·)
  weight : ∀ row ∈ rows, row.weight = (after.members row.pair).card

/-- No call that the collecting loop makes raises. -/
def Quiet (fault : Option Fault) (backend : Backend) (edgeId : String) (pairs : List PairKey) :
    Prop :=
  ∀ pair ∈ pairs, ∀ landed, fault ≠ some ⟨.add pair, landed⟩ ∧
    (edgeId ∉ backend.members pair →
      fault ≠ some ⟨.count pair, landed⟩ ∧ fault ≠ some ⟨.edgeTypes pair, landed⟩)

theorem Collected.cons_known {after : Backend} {rest : List PairKey} {rows : List Upsert}
    (collected : Collected backend after rest edgeId rows)
    (known : edgeId ∈ backend.members pair) :
    Collected backend after (pair :: rest) edgeId rows where
  with_members := by
    refine ⟨collected.with_members.1, fun other => ?_⟩
    rw [collected.with_members.2 other]
    by_cases same : other = pair
    · subst same
      simp [known]
    · simp [same]
  row_pairs := by
    rw [collected.row_pairs, List.filter_cons_of_neg (by simpa using known)]
  weight := collected.weight

theorem Collected.cons_new {after : Backend} {rest : List PairKey} {rows : List Upsert}
    {types : Finset String}
    (collected : Collected (backend.insertMember pair edgeId edgeType) after rest edgeId rows)
    (fresh : pair ∉ rest) (new : edgeId ∉ backend.members pair) :
    Collected backend after (pair :: rest) edgeId
      (⟨pair, ((backend.insertMember pair edgeId edgeType).members pair).card, types⟩ :: rows) where
  with_members := by
    refine ⟨collected.with_members.1.trans insertMember_edges, fun other => ?_⟩
    rw [collected.with_members.2 other, insertMember_members]
    by_cases same : other = pair
    · subst same
      simp [fresh]
    · simp [same]
  row_pairs := by
    rw [List.map_cons, collected.row_pairs, List.filter_cons_of_pos (by simpa using new)]
    congr 1
    apply List.filter_congr
    intro other inRest
    have distinct : other ≠ pair := fun same => fresh (same ▸ inRest)
    rw [insertMember_members, Function.update_of_ne distinct]
  weight := by
    rw [List.forall_mem_cons]
    constructor
    · rw [collected.with_members.2 pair, if_neg fresh]
    · exact collected.weight

theorem Quiet.insertMember {rest : List PairKey} (quiet : Quiet fault backend edgeId rest)
    (fresh : pair ∉ rest) :
    Quiet fault (backend.insertMember pair edgeId edgeType) edgeId rest := by
  intro other inRest landed
  have distinct : other ≠ pair := fun same => fresh (same ▸ inRest)
  rw [insertMember_members, Function.update_of_ne distinct]
  exact quiet other inRest landed

theorem addPairs_quiet (distinct : pairs.Nodup) (quiet : Quiet fault backend edgeId pairs) :
    Ends (addPairs fault edgeId edgeType pairs) backend
      (fun rows after => Collected backend after pairs edgeId rows) fun _ => False := by
  induction pairs generalizing backend with
  | nil => exact ⟨⟨rfl, fun _ => by simp⟩, rfl, by simp⟩
  | cons pair rest ih =>
      obtain ⟨fresh, restDistinct⟩ := List.nodup_cons.mp distinct
      have ⟨headQuiet, restQuiet⟩ := List.forall_mem_cons.mp quiet
      simp only [addPairs, ends_bind]
      apply ends_request _ fun landed failed => (headQuiet landed).1 failed
      intro _
      by_cases known : edgeId ∈ backend.members pair
      · simp only [known, not_true_eq_false, decide_false, Bool.false_eq_true, if_false,
          insertMember_of_mem known]
        apply (ih restDistinct restQuiet).mono _ fun _ => id
        exact fun rows after collected => collected.cons_known known
      · simp only [known, not_false_eq_true, decide_true, if_true, ends_bind]
        apply ends_request _ fun landed failed => ((headQuiet landed).2 known).1 failed
        intro _
        apply ends_request _ fun landed failed => ((headQuiet landed).2 known).2 failed
        intro _
        have restQuiet : Quiet fault backend edgeId rest := restQuiet
        apply (ih restDistinct (restQuiet.insertMember fresh)).mono _ fun _ => id
        exact fun rows after collected => collected.cons_new fresh known

/-- Before the first new member the collecting loop may raise; the call that adds
a member must not have taken effect then. -/
def AddsHarmless (backend : Backend) (edgeId : String) (pairs : List PairKey) (fault : Fault) :
    Prop :=
  match fault.call with
  | .add pair => pair ∈ pairs →
      (∀ earlier later, pairs = earlier ++ pair :: later →
        ∀ other ∈ earlier, edgeId ∈ backend.members other) ∧
      (edgeId ∈ backend.members pair ∨ fault.landed pair = false)
  | .count pair | .edgeTypes pair => pair ∈ pairs → edgeId ∈ backend.members pair
  | _ => True

theorem AddsHarmless.tail {rest : List PairKey} {raised : Fault}
    (harmless : AddsHarmless backend edgeId (pair :: rest) raised) :
    AddsHarmless backend edgeId rest raised := by
  unfold AddsHarmless at harmless ⊢
  split
  · rename_i failing call
    rw [call] at harmless
    intro inRest
    obtain ⟨before, lost⟩ := harmless (List.mem_cons_of_mem _ inRest)
    refine ⟨fun earlier later split other inEarlier => ?_, lost⟩
    exact before (pair :: earlier) later (congrArg (pair :: ·) split) other
      (List.mem_cons_of_mem _ inEarlier)
  · rename_i failing call
    rw [call] at harmless
    exact fun inRest => harmless (List.mem_cons_of_mem _ inRest)
  · rename_i failing call
    rw [call] at harmless
    exact fun inRest => harmless (List.mem_cons_of_mem _ inRest)
  · trivial

/-- Once the first pair gets a new member, none of the calls may raise. -/
theorem quiet_of_harmless {rest : List PairKey}
    (harmless : ∀ raised, fault = some raised → AddsHarmless backend edgeId (pair :: rest) raised)
    (new : edgeId ∉ backend.members pair)
    (added : ¬ ∃ landed, fault = some ⟨.add pair, landed⟩) :
    Quiet fault backend edgeId (pair :: rest) := by
  intro other member landed
  constructor
  · intro failed
    obtain ⟨before, -⟩ := harmless _ failed member
    rcases List.mem_cons.mp member with same | inRest
    · exact added ⟨landed, same ▸ failed⟩
    · obtain ⟨earlier, later, split⟩ := List.append_of_mem inRest
      exact new (before (pair :: earlier) later (congrArg (pair :: ·) split) pair
        List.mem_cons_self)
  · intro otherNew
    constructor
    · exact fun failed => otherNew (harmless _ failed member)
    · exact fun failed => otherNew (harmless _ failed member)

theorem addPairs_harmless (distinct : pairs.Nodup)
    (harmless : ∀ raised, fault = some raised → AddsHarmless backend edgeId pairs raised) :
    Ends (addPairs fault edgeId edgeType pairs) backend
      (fun rows after => Collected backend after pairs edgeId rows) (· = backend) := by
  induction pairs with
  | nil => exact ⟨⟨rfl, fun _ => by simp⟩, rfl, by simp⟩
  | cons pair rest ih =>
      obtain ⟨fresh, restDistinct⟩ := List.nodup_cons.mp distinct
      by_cases known : edgeId ∈ backend.members pair
      · have collects := ih restDistinct fun raised failed => (harmless raised failed).tail
        simp only [addPairs, ends_bind]
        apply ends_request
        · intro _
          simp only [known, not_true_eq_false, decide_false, Bool.false_eq_true, if_false,
            insertMember_of_mem known]
          apply collects.mono _ fun _ => id
          exact fun rows after collected => collected.cons_known known
        · intro landed _
          rw [insertMember_of_mem known, mix_self]
      · by_cases first : ∃ landed, fault = some ⟨.add pair, landed⟩
        · obtain ⟨landed, failed⟩ := first
          have lost : landed pair = false :=
            ((harmless _ failed List.mem_cons_self).2).resolve_left known
          simp only [addPairs, ends_bind]
          apply ends_request
          · exact fun answered => absurd failed (answered landed)
          · intro landed' failed'
            cases failed.symm.trans failed'
            exact mix_insertMember lost
        · have quiet := quiet_of_harmless harmless known first
          exact (addPairs_quiet distinct quiet).mono (fun _ _ => id) fun _ => False.elim

variable {rows : List Upsert}

@[simp] theorem upsertEdges_members : (backend.upsertEdges rows).members = backend.members := by
  unfold Backend.upsertEdges
  induction rows generalizing backend with
  | nil => rfl
  | cons row rest ih => exact ih

@[simp] theorem upsertEdges_edgeType : (backend.upsertEdges rows).edgeType = backend.edgeType := by
  unfold Backend.upsertEdges
  induction rows generalizing backend with
  | nil => rfl
  | cons row rest ih => exact ih

theorem upsertEdges_append {more : List Upsert} :
    backend.upsertEdges (rows ++ more) = (backend.upsertEdges rows).upsertEdges more :=
  List.foldl_append

theorem upsertEdges_of_notMem (absent : pair ∉ rows.map Upsert.pair) :
    (backend.upsertEdges rows).edges pair = backend.edges pair := by
  induction rows generalizing backend with
  | nil => rfl
  | cons row rest ih =>
      rw [List.map_cons, List.mem_cons, not_or] at absent
      exact (ih absent.2).trans (Function.update_of_ne absent.1 _ _)

theorem upsertEdges_of_mem (distinct : (rows.map Upsert.pair).Nodup) {row : Upsert}
    (member : row ∈ rows) :
    (backend.upsertEdges rows).edges row.pair = some ⟨row.weight, row.sourceEdgeTypes⟩ := by
  induction rows generalizing backend with
  | nil => cases member
  | cons head rest ih =>
      rw [List.map_cons] at distinct
      obtain ⟨fresh, restDistinct⟩ := List.nodup_cons.mp distinct
      rcases List.mem_cons.mp member with same | inRest
      · subst same
        exact (upsertEdges_of_notMem fresh).trans (Function.update_self _ _ _)
      · exact ih restDistinct inRest

theorem mix_upsertEdges {landed : PairKey → Bool}
    (all : ∀ pair ∈ rows.map Upsert.pair, landed pair = true) :
    backend.mix landed (backend.upsertEdges rows) = backend.upsertEdges rows := by
  ext other : 2
  · simp [Backend.mix]
  · simp [Backend.mix]
  · by_cases written : other ∈ rows.map Upsert.pair
    · simp only [Backend.mix, all other written, if_true]
    · simp only [Backend.mix, upsertEdges_of_notMem written, ite_self]

theorem upsertChunks_ends {index : Nat} {batches : List (List Upsert)}
    (harmless : ∀ chunk landed, fault = some ⟨.upsertAggregatedEdges chunk, landed⟩ →
      index ≤ chunk → chunk < index + batches.length →
        chunk + 1 = index + batches.length ∧
          ∀ pair ∈ (batches.getLast?.getD []).map Upsert.pair, landed pair = true) :
    Ends (upsertChunks fault index batches) backend
      (fun _ after => after = backend.upsertEdges batches.flatten)
      (· = backend.upsertEdges batches.flatten) := by
  induction batches generalizing index backend with
  | nil => rfl
  | cons batch rest ih =>
      simp only [upsertChunks, ends_bind, List.flatten_cons, upsertEdges_append]
      apply ends_request
      · intro _
        apply ih
        intro chunk landed failed lower upper
        have ⟨last, all⟩ := harmless chunk landed failed (by omega)
          (by rw [List.length_cons]; omega)
        rw [List.length_cons] at last
        refine ⟨by omega, ?_⟩
        have nonempty : rest ≠ [] := by
          intro empty
          rw [empty, List.length_nil] at upper
          omega
        rwa [List.getLast?_cons_of_ne_nil nonempty] at all
      · intro landed failed
        have ⟨last, all⟩ := harmless index landed failed (Nat.le_refl _)
          (by rw [List.length_cons]; omega)
        obtain rfl : rest = [] := by
          rw [List.length_cons] at last
          exact List.length_eq_zero_iff.mp (by omega)
        exact mix_upsertEdges all

theorem chunks_map {β : Type} (f : α → β) (items : List α) (size : Nat) :
    (chunks items size).map (List.map f) = chunks (items.map f) size := by
  simp [chunks, Function.comp_def, List.map_take, List.map_drop]

theorem flatten_chunks (items : List α) {size : Nat} (positive : 0 < size) :
    (chunks items size).flatten = items := by
  have upTo : ∀ count, ((List.range count).map fun index =>
      (items.drop (index * size)).take size).flatten = items.take (count * size) := by
    intro count
    induction count with
    | zero => simp
    | succ count ih =>
        rw [List.range_succ, List.map_append, List.flatten_append, ih, Nat.succ_mul, List.take_add]
        simp
  rw [chunks, upTo]
  apply List.take_of_length_le
  have covered := Nat.lt_div_mul_add positive (a := items.length + size - 1)
  omega

def Backend.tally (backend : Backend) : Tally PairKey String where
  members := backend.members
  published pair := (backend.edges pair).map AggregatedEdge.weight

/-- Every pair has an edge exactly when its set is not empty, with the size of
the set as weight. -/
def Backend.Settled (backend : Backend) : Prop :=
  ∀ pair, backend.tally.SettledAt pair

theorem Backend.Settled.represents (settled : backend.Settled) :
    backend.tally.Represents (fun _ => True) backend.members :=
  Tally.settled_iff_represents.mp fun pair _ => settled pair

theorem settled_of_represents {after : Backend}
    (represents : after.tally.Represents (fun _ => True) after.members) : after.Settled :=
  fun pair => Tally.settled_iff_represents.mpr represents pair trivial

theorem unseenPairs_nodup (seen pairs : List PairKey) :
    (unseenPairs seen pairs).Nodup ∧ ∀ pair ∈ unseenPairs seen pairs, pair ∉ seen := by
  induction pairs generalizing seen with
  | nil => simp [unseenPairs]
  | cons pair rest ih =>
      unfold unseenPairs
      split
      · exact ih seen
      · rename_i fresh
        obtain ⟨distinct, unseen⟩ := ih (pair :: seen)
        constructor
        · exact List.nodup_cons.mpr ⟨fun again => unseen pair again List.mem_cons_self, distinct⟩
        · rw [List.forall_mem_cons]
          constructor
          · exact fun old => fresh (.inr old)
          · exact fun other later old => unseen other later (List.mem_cons_of_mem _ old)

theorem crossPairs_nodup (sourceChain targetChain : List String) :
    (crossPairs sourceChain targetChain).Nodup :=
  (unseenPairs_nodup [] _).1

/-- The pairs with a new member are upserted with the size of their set, the
others have kept their set and their edge. -/
theorem Collected.settled {after : Backend} {rows : List Upsert}
    (collected : Collected backend after pairs edgeId rows) (distinct : pairs.Nodup)
    (settled : backend.Settled) : (after.upsertEdges rows).Settled := by
  obtain ⟨⟨edges, members⟩, row_pairs, weight⟩ := collected
  have distinctRows : (rows.map Upsert.pair).Nodup := row_pairs ▸ distinct.filter _
  apply settled_of_represents
  apply settled.represents.next
  · exact fun _ _ => rfl
  · intro pair _
    rw [upsertEdges_members]
    by_cases new : pair ∈ rows.map Upsert.pair
    · left
      obtain ⟨row, member, rfl⟩ := List.mem_map.mp new
      have added : edgeId ∈ after.members row.pair := by
        rw [row_pairs, List.mem_filter] at new
        rw [members row.pair, if_pos new.1]
        exact Finset.mem_insert_self _ _
      simp only [Backend.tally, upsertEdges_of_mem distinctRows member, Option.map_some,
        Tally.countOf_of_mem added, weight row member]
    · right
      constructor
      · rw [members pair]
        split
        · rename_i inPairs
          rw [row_pairs, List.mem_filter] at new
          have known : edgeId ∈ backend.members pair := by
            by_contra unknown
            exact new ⟨inPairs, decide_eq_true unknown⟩
          exact Finset.insert_eq_self.mpr known
        · rfl
      · simp only [Backend.tally, upsertEdges_of_notMem new, edges]

/-- Where `materialize_lineage_edge` may raise and leave a settled backend: before
the first new member, or in the last upsert after all of it was written. -/
def MaterializeHarmless (config : MaterializerConfig) (backend : Backend) (edgeId : String)
    (pairs : List PairKey) (fault : Fault) : Prop :=
  AddsHarmless backend edgeId pairs fault ∧
    ∀ chunk, fault.call = .upsertAggregatedEdges chunk →
      let batches := chunks (pairs.filter (edgeId ∉ backend.members ·)) config.batchSize
      chunk < batches.length → chunk + 1 = batches.length ∧
        ∀ pair ∈ batches.getLast?.getD [], fault.landed pair = true

theorem materializeLineageEdge_settled {config : MaterializerConfig}
    {chains : String → List String} {sourceUrn targetUrn : String} (settled : backend.Settled)
    (harmless : ∀ raised, fault = some raised →
      MaterializeHarmless config backend edgeId (edgePairs chains sourceUrn targetUrn) raised) :
    Ends (materializeLineageEdge fault edgeId edgeType config chains sourceUrn targetUrn) backend
      (fun _ after => after.Settled) Backend.Settled := by
  have distinct : (edgePairs chains sourceUrn targetUrn).Nodup := crossPairs_nodup _ _
  simp only [materializeLineageEdge, ends_bind]
  apply ends_request _ fun landed _ => (mix_self landed).symm ▸ settled
  intro _
  apply ends_request _ fun landed _ => (mix_self landed).symm ▸ settled
  intro _
  have adds : Ends (addPairs fault edgeId edgeType (edgePairs chains sourceUrn targetUrn)) backend
      (fun rows after => Collected backend after (edgePairs chains sourceUrn targetUrn) edgeId rows)
      (· = backend) :=
    addPairs_harmless distinct fun raised failed => (harmless raised failed).1
  apply adds.mono _ fun after same => same.symm ▸ settled
  intro rows middle collected
  have batches : (chunks rows config.batchSize).map (List.map Upsert.pair) =
      chunks ((edgePairs chains sourceUrn targetUrn).filter (edgeId ∉ backend.members ·))
        config.batchSize := by
    rw [chunks_map, collected.row_pairs]
  have upserts : Ends (upsertChunks fault 0 (chunks rows config.batchSize)) middle
      (fun _ after => after = middle.upsertEdges (chunks rows config.batchSize).flatten)
      (· = middle.upsertEdges (chunks rows config.batchSize).flatten) := by
    apply upsertChunks_ends
    intro chunk landed failed _ inside
    have allowed := (harmless _ failed).2 chunk rfl
    simp only [← batches, List.length_map, List.getLast?_map] at allowed
    obtain ⟨last, all⟩ := allowed (by omega)
    refine ⟨by omega, ?_⟩
    cases final : (chunks rows config.batchSize).getLast? with
    | none => simp
    | some batch =>
        rw [final] at all
        exact all
  rw [flatten_chunks rows config.batch_positive] at upserts
  have done := collected.settled distinct settled
  exact upserts.mono (fun _ after same => same.symm ▸ done) fun after same => same.symm ▸ done

end Univiz.Providers
