import Univiz.Falkor.Store

namespace Univiz.Falkor

open Univiz.Data

/-! The two writers of AGGREGATED edges, `_materialize_edges_batched` and
`on_lineage_edge_written`.  Each sends one SADD pipeline with its contributions,
asks with SCARD for the sizes of the sets that got a new member, and then merges
the edges of those pairs.  The two differ in where the contributions come from
and in their SET clauses. -/

def sadd (members : MemberSets) (key id : String) : MemberSets :=
  Function.update members key (insert id (members key))

/-- The SADD pipeline and its replies, `true` for a member that was not there. -/
def saddAll (graphName : String) : MemberSets → List Contribution → MemberSets × List Bool
  | members, [] => (members, [])
  | members, contribution :: rest =>
      let key := membersKey graphName contribution.pair
      let (after, replies) := saddAll graphName (sadd members key contribution.edgeId) rest
      (after, decide (contribution.edgeId ∉ members key) :: replies)

/-- The pairs of the contributions that were new. -/
def addedPairs (contributed : List Contribution) (replies : List Bool) : List Pair :=
  ((contributed.zip replies).filter (·.2)).map (·.1.pair)

/-- The keys of `new_pair_keys`, in the order in which they first occur. -/
def newPairs (contributed : List Contribution) (replies : List Bool) : List Pair :=
  (addedPairs contributed replies).reverse.dedup.reverse

/-- The weight for a pair: its SCARD reply, or 1 for a reply of 0. -/
def scardWeight (graphName : String) (members : MemberSets) (pair : Pair) : Nat :=
  if (members (membersKey graphName pair)).card = 0 then 1
  else (members (membersKey graphName pair)).card

structure MergeItem where
  pair : Pair
  weight : Nat
  edgeTypes : List String
  sourceLevel : Option Int
  targetLevel : Option Int
deriving DecidableEq, Repr

/-- Adding the types that are not there yet. -/
def addTypes (known added : List String) : List String :=
  added.foldl (fun types edgeType => if edgeType ∈ types then types else types ++ [edgeType]) known

def AggregatedEdge.typesOf (existing : Option AggregatedEdge) : List String :=
  (existing.map AggregatedEdge.sourceEdgeTypes).getD []

/-- MERGE of one edge; `set` is the SET clause. -/
def mergeEdge (set : Option AggregatedEdge → MergeItem → AggregatedEdge)
    (edges : Pair → Option AggregatedEdge) (item : MergeItem) : Pair → Option AggregatedEdge :=
  Function.update edges item.pair (some (set (edges item.pair) item))

def mergeAll (set : Option AggregatedEdge → MergeItem → AggregatedEdge)
    (edges : Pair → Option AggregatedEdge) (items : List MergeItem) :
    Pair → Option AggregatedEdge :=
  items.foldl (mergeEdge set) edges

/-- A call of a writer: what its SADD pipeline contributes and what it merges
once both pipelines have replied. -/
structure Write where
  contributed : List Contribution
  items : List MergeItem
  set : Option AggregatedEdge → MergeItem → AggregatedEdge

/-- Where a call may be cut off: before its SADD pipeline, with a part of that
pipeline executed, or with a part of the MERGEs executed. -/
inductive Stop where
  | before
  | sadd (executed : Nat)
  | merge (executed : Nat)
deriving DecidableEq, Repr

namespace Write

variable (graphName : String) (write : Write) (store : Store)

def complete : Store where
  edges := mergeAll write.set store.edges write.items
  members := (saddAll graphName store.members write.contributed).1

def stoppedAt : Stop → Store
  | .before => store
  | .sadd executed =>
      { store with
        members := (saddAll graphName store.members (write.contributed.take executed)).1 }
  | .merge executed =>
      { edges := mergeAll write.set store.edges (write.items.take executed)
        members := (saddAll graphName store.members write.contributed).1 }

end Write

/-- The SET clause of the batch: levels only replace what is known if they were
found. -/
def batchSet (existing : Option AggregatedEdge) (item : MergeItem) : AggregatedEdge where
  weight := item.weight
  sourceEdgeTypes := addTypes (AggregatedEdge.typesOf existing) item.edgeTypes
  sourceLevel := item.sourceLevel <|> existing.bind AggregatedEdge.sourceLevel
  targetLevel := item.targetLevel <|> existing.bind AggregatedEdge.targetLevel
  levelDigest := existing.bind AggregatedEdge.levelDigest

/-- A call of `_materialize_edges_batched`; `levels` is the best-effort lookup
of entity levels. -/
def batchWrite (graphName : String) (levels : Urn → Option Int) (ancestors : Urn → List Urn)
    (store : Store) (rows : List LineageEdge) : Write :=
  let contributed := contributions ancestors rows
  let (members, replies) := saddAll graphName store.members contributed
  { contributed := contributed
    items := (newPairs contributed replies).map fun pair =>
      { pair := pair
        weight := scardWeight graphName members pair
        edgeTypes := ((contributed.filter (·.pair = pair)).map Contribution.edgeType).dedup
        sourceLevel := levels pair.1
        targetLevel := levels pair.2 }
    set := batchSet }

/-- `_materialize_edges_batched` without interruption: the store after it and
the number of pairs it merged. -/
def materializeEdgesBatched (graphName : String) (levels : Urn → Option Int)
    (ancestors : Urn → List Urn) (store : Store) (rows : List LineageEdge) : Store × Nat :=
  let write := batchWrite graphName levels ancestors store rows
  (write.complete graphName store, write.items.length)

/-- The level of an endpoint without a known level. -/
def unknownLevel : Int := -1

/-- The SET clause of `on_lineage_edge_written`. -/
def writtenSet (digest : Option String) (existing : Option AggregatedEdge) (item : MergeItem) :
    AggregatedEdge where
  weight := item.weight
  sourceEdgeTypes := addTypes (AggregatedEdge.typesOf existing) item.edgeTypes
  sourceLevel := item.sourceLevel
  targetLevel := item.targetLevel
  levelDigest := some (digest.getD "")

/-- The contributions of a single edge. -/
def edgeContributions (ancestors : Urn → List Urn) (sourceUrn targetUrn : Urn)
    (edgeId edgeType : String) : List Contribution :=
  (pairsBetween (sourceUrn :: ancestors sourceUrn) (targetUrn :: ancestors targetUrn)).map
    fun pair => ⟨pair, edgeId, edgeType⟩

/-- A call of `on_lineage_edge_written`. -/
def edgeWrite (graphName : String) (levels : Urn → Option Int) (digest : Option String)
    (ancestors : Urn → List Urn) (store : Store) (sourceUrn targetUrn : Urn)
    (edgeId edgeType : String) : Write :=
  let contributed := edgeContributions ancestors sourceUrn targetUrn edgeId edgeType
  let (members, replies) := saddAll graphName store.members contributed
  { contributed := contributed
    items := (addedPairs contributed replies).map fun pair =>
      { pair := pair
        weight := scardWeight graphName members pair
        edgeTypes := [edgeType]
        sourceLevel := some ((levels pair.1).getD unknownLevel)
        targetLevel := some ((levels pair.2).getD unknownLevel) }
    set := writtenSet digest }

def onLineageEdgeWritten (graphName : String) (levels : Urn → Option Int) (digest : Option String)
    (ancestors : Urn → List Urn) (store : Store) (sourceUrn targetUrn : Urn)
    (edgeId edgeType : String) : Store × Nat :=
  let write := edgeWrite graphName levels digest ancestors store sourceUrn targetUrn edgeId edgeType
  (write.complete graphName store, write.items.length)

variable {graphName : String} {nodes : Urn → Prop} {levels : Urn → Option Int}
  {members : MemberSets} {contributed : List Contribution} {pair : Pair}
  {set : Option AggregatedEdge → MergeItem → AggregatedEdge}

theorem mem_sadd {key key' id id' : String} :
    id' ∈ sadd members key id key' ↔ id' ∈ members key' ∨ key = key' ∧ id = id' := by
  unfold sadd
  by_cases same : key' = key
  · subst same
    simp [or_comm, eq_comm]
  · simp [Function.update_of_ne same, Ne.symm same]

theorem mem_saddAll {key id : String} :
    id ∈ (saddAll graphName members contributed).1 key ↔
      id ∈ members key ∨ ∃ contribution ∈ contributed,
        membersKey graphName contribution.pair = key ∧ contribution.edgeId = id := by
  induction contributed generalizing members with
  | nil => simp [saddAll]
  | cons contribution rest ih =>
      simp only [saddAll, ih, mem_sadd, List.exists_mem_cons_iff, or_assoc]

/-- All pairs lie between nodes. -/
def AllBetween (nodes : Urn → Prop) (contributed : List Contribution) : Prop :=
  ∀ contribution ∈ contributed, Between nodes contribution.pair

theorem saddAll_members (unambiguous : Unambiguous graphName nodes)
    (inside : AllBetween nodes contributed) (between : Between nodes pair) :
    (saddAll graphName members contributed).1 (membersKey graphName pair) =
      members (membersKey graphName pair) ∪ idsAt pair contributed := by
  ext id
  rw [mem_saddAll, Finset.mem_union, mem_idsAt]
  refine or_congr_right (exists_congr fun contribution => ?_)
  refine and_congr_right fun member => and_congr_left fun _ => ?_
  exact ⟨unambiguous.eq (inside contribution member) between, congrArg _⟩

theorem addedPairs_of_known {contribution : Contribution} {rest : List Contribution}
    (known : contribution.edgeId ∈ members (membersKey graphName contribution.pair)) :
    addedPairs (contribution :: rest) (saddAll graphName members (contribution :: rest)).2 =
      addedPairs rest (saddAll graphName (sadd members (membersKey graphName contribution.pair)
        contribution.edgeId) rest).2 := by
  simp [saddAll, addedPairs, known]

theorem addedPairs_of_new {contribution : Contribution} {rest : List Contribution}
    (new : contribution.edgeId ∉ members (membersKey graphName contribution.pair)) :
    addedPairs (contribution :: rest) (saddAll graphName members (contribution :: rest)).2 =
      contribution.pair :: addedPairs rest (saddAll graphName (sadd members
        (membersKey graphName contribution.pair) contribution.edgeId) rest).2 := by
  simp [saddAll, addedPairs, new]

theorem exists_of_mem_addedPairs
    (added : pair ∈ addedPairs contributed (saddAll graphName members contributed).2) :
    ∃ contribution ∈ contributed, contribution.pair = pair ∧
      contribution.edgeId ∉ members (membersKey graphName pair) := by
  induction contributed generalizing members with
  | nil => cases added
  | cons contribution rest ih =>
      rw [List.exists_mem_cons_iff]
      have later : pair ∈ addedPairs rest (saddAll graphName (sadd members
            (membersKey graphName contribution.pair) contribution.edgeId) rest).2 →
          ∃ other ∈ rest, other.pair = pair ∧
            other.edgeId ∉ members (membersKey graphName pair) := by
        intro inRest
        obtain ⟨other, member, same, new⟩ := ih inRest
        exact ⟨other, member, same, fun old => new (mem_sadd.mpr (.inl old))⟩
      by_cases known : contribution.edgeId ∈ members (membersKey graphName contribution.pair)
      · rw [addedPairs_of_known known] at added
        exact .inr (later added)
      · rw [addedPairs_of_new known] at added
        cases List.mem_cons.mp added with
        | inl same => exact .inl ⟨same.symm, same ▸ known⟩
        | inr inRest => exact .inr (later inRest)

theorem mem_addedPairs (unambiguous : Unambiguous graphName nodes)
    (inside : AllBetween nodes contributed) (between : Between nodes pair) :
    pair ∈ addedPairs contributed (saddAll graphName members contributed).2 ↔
      ∃ contribution ∈ contributed, contribution.pair = pair ∧
        contribution.edgeId ∉ members (membersKey graphName pair) := by
  refine ⟨exists_of_mem_addedPairs, fun fresh => ?_⟩
  obtain ⟨added, member, same, new⟩ := fresh
  induction contributed generalizing members with
  | nil => cases member
  | cons contribution rest ih =>
      have ⟨headInside, restInside⟩ := List.forall_mem_cons.mp inside
      by_cases head : contribution.pair = pair ∧ contribution.edgeId = added.edgeId
      · obtain ⟨rfl, sameId⟩ := head
        rw [addedPairs_of_new (sameId ▸ new)]
        exact List.mem_cons_self
      · have inRest : added ∈ rest := by
          refine (List.mem_cons.mp member).resolve_left ?_
          intro isHead
          exact head ⟨isHead ▸ same, isHead ▸ rfl⟩
        have stillNew : added.edgeId ∉ sadd members (membersKey graphName contribution.pair)
            contribution.edgeId (membersKey graphName pair) := by
          intro old
          rcases mem_sadd.mp old with before | ⟨sameKey, sameId⟩
          · exact new before
          · exact head ⟨unambiguous.eq headInside between sameKey, sameId⟩
        have later := ih restInside inRest stillNew
        by_cases known : contribution.edgeId ∈ members (membersKey graphName contribution.pair)
        · rw [addedPairs_of_known known]
          exact later
        · rw [addedPairs_of_new known]
          exact List.mem_cons_of_mem _ later

theorem newPairs_nodup (replies : List Bool) : (newPairs contributed replies).Nodup :=
  List.nodup_reverse.mpr (List.nodup_dedup _)

theorem mem_newPairs {replies : List Bool} :
    pair ∈ newPairs contributed replies ↔ pair ∈ addedPairs contributed replies := by
  simp [newPairs]

theorem addedPairs_nodup (id : String)
    (single : ∀ contribution ∈ contributed, contribution.edgeId = id) :
    (addedPairs contributed (saddAll graphName members contributed).2).Nodup := by
  induction contributed generalizing members with
  | nil => exact List.nodup_nil
  | cons contribution rest ih =>
      have ⟨head, restSingle⟩ := List.forall_mem_cons.mp single
      by_cases known : contribution.edgeId ∈ members (membersKey graphName contribution.pair)
      · rw [addedPairs_of_known known]
        exact ih restSingle
      · rw [addedPairs_of_new known]
        refine List.nodup_cons.mpr ⟨fun again => ?_, ih restSingle⟩
        obtain ⟨other, member, same, new⟩ := exists_of_mem_addedPairs again
        exact new (mem_sadd.mpr (.inr ⟨rfl, head.trans (restSingle other member).symm⟩))

theorem mergeAll_of_notMem {edges : Pair → Option AggregatedEdge} {items : List MergeItem}
    (absent : ∀ item ∈ items, item.pair ≠ pair) : mergeAll set edges items pair = edges pair := by
  unfold mergeAll
  induction items generalizing edges with
  | nil => rfl
  | cons item rest ih =>
      have ⟨head, later⟩ := List.forall_mem_cons.mp absent
      rw [List.foldl_cons, ih later, mergeEdge, Function.update_of_ne head.symm]

theorem mergeAll_of_mem {edges : Pair → Option AggregatedEdge} {items : List MergeItem}
    (distinct : (items.map MergeItem.pair).Nodup) {item : MergeItem} (member : item ∈ items) :
    mergeAll set edges items item.pair = some (set (edges item.pair) item) := by
  induction items generalizing edges with
  | nil => cases member
  | cons head rest ih =>
      obtain ⟨fresh, restDistinct⟩ := List.nodup_cons.mp distinct
      have unfolded : mergeAll set edges (head :: rest) =
          mergeAll set (mergeEdge set edges head) rest := rfl
      rw [unfolded]
      rcases List.mem_cons.mp member with same | later
      · subst same
        have absent : ∀ other ∈ rest, other.pair ≠ item.pair := fun other inRest same =>
          fresh (List.mem_map.mpr ⟨other, inRest, same⟩)
        rw [mergeAll_of_notMem absent, mergeEdge, Function.update_self]
      · have distinctHead : item.pair ≠ head.pair := fun same =>
          fresh (same ▸ List.mem_map_of_mem later)
        rw [ih restDistinct later, mergeEdge, Function.update_of_ne distinctHead]

/-- The writer merges each pair that gets a new member once, with the size that
its set then has. -/
structure Write.Sound (graphName : String) (nodes : Urn → Prop) (members : MemberSets)
    (write : Write) : Prop where
  inside : AllBetween nodes write.contributed
  distinct : (write.items.map MergeItem.pair).Nodup
  merged : ∀ pair, Between nodes pair → ((∃ item ∈ write.items, item.pair = pair) ↔
    ¬ idsAt pair write.contributed ⊆ members (membersKey graphName pair))
  weight : ∀ item ∈ write.items, Between nodes item.pair → item.weight =
    (members (membersKey graphName item.pair) ∪ idsAt item.pair write.contributed).card
  set_weight : ∀ existing item, (write.set existing item).weight = item.weight

theorem added_iff (unambiguous : Unambiguous graphName nodes)
    (inside : AllBetween nodes contributed) (between : Between nodes pair) :
    pair ∈ addedPairs contributed (saddAll graphName members contributed).2 ↔
      ¬ idsAt pair contributed ⊆ members (membersKey graphName pair) := by
  rw [mem_addedPairs unambiguous inside between, Finset.not_subset]
  constructor
  · intro ⟨contribution, contributes, same, new⟩
    exact ⟨contribution.edgeId, mem_idsAt.mpr ⟨contribution, contributes, same, rfl⟩, new⟩
  · intro ⟨id, added, new⟩
    obtain ⟨contribution, contributes, same, rfl⟩ := mem_idsAt.mp added
    exact ⟨contribution, contributes, same, new⟩

theorem scardWeight_eq (unambiguous : Unambiguous graphName nodes)
    (inside : AllBetween nodes contributed) (between : Between nodes pair)
    (added : pair ∈ addedPairs contributed (saddAll graphName members contributed).2) :
    scardWeight graphName (saddAll graphName members contributed).1 pair =
      (members (membersKey graphName pair) ∪ idsAt pair contributed).card := by
  obtain ⟨contribution, contributes, same, -⟩ := exists_of_mem_addedPairs added
  have nonempty : (members (membersKey graphName pair) ∪ idsAt pair contributed).card ≠ 0 :=
    Finset.card_ne_zero_of_mem (Finset.mem_union_right _
      (mem_idsAt.mpr ⟨contribution, contributes, same, rfl⟩))
  rw [scardWeight, saddAll_members unambiguous inside between, if_neg nonempty]

variable {ancestors : Urn → List Urn} {store : Store}

theorem batchWrite_pairs {rows : List LineageEdge} :
    (batchWrite graphName levels ancestors store rows).items.map MergeItem.pair =
      newPairs (contributions ancestors rows)
        (saddAll graphName store.members (contributions ancestors rows)).2 := by
  simp [batchWrite, Function.comp_def]

theorem edgeWrite_pairs {digest : Option String} {sourceUrn targetUrn : Urn}
    {edgeId edgeType : String} :
    let contributed := edgeContributions ancestors sourceUrn targetUrn edgeId edgeType
    (edgeWrite graphName levels digest ancestors store sourceUrn targetUrn edgeId
        edgeType).items.map MergeItem.pair =
      addedPairs contributed (saddAll graphName store.members contributed).2 := by
  simp [edgeWrite, Function.comp_def]

theorem batchWrite_sound (unambiguous : Unambiguous graphName nodes) {rows : List LineageEdge}
    (inside : AllBetween nodes (contributions ancestors rows)) :
    (batchWrite graphName levels ancestors store rows).Sound graphName nodes store.members where
  inside := inside
  distinct := by
    rw [batchWrite_pairs]
    exact newPairs_nodup _
  merged pair between := by
    rw [← List.mem_map, batchWrite_pairs, mem_newPairs]
    exact added_iff unambiguous inside between
  weight item member between := by
    obtain ⟨pair, isNew, rfl⟩ := List.mem_map.mp member
    exact scardWeight_eq unambiguous inside between (mem_newPairs.mp isNew)
  set_weight _ _ := rfl

theorem edgeWrite_sound {digest : Option String} {sourceUrn targetUrn : Urn}
    {edgeId edgeType : String} (unambiguous : Unambiguous graphName nodes)
    (inside : AllBetween nodes
      (edgeContributions ancestors sourceUrn targetUrn edgeId edgeType)) :
    (edgeWrite graphName levels digest ancestors store sourceUrn targetUrn edgeId edgeType).Sound
      graphName nodes store.members where
  inside := inside
  distinct := by
    rw [edgeWrite_pairs]
    refine addedPairs_nodup edgeId fun contribution member => ?_
    obtain ⟨pair, -, rfl⟩ := List.mem_map.mp member
    rfl
  merged pair between := by
    rw [← List.mem_map, edgeWrite_pairs]
    exact added_iff unambiguous inside between
  weight item member between := by
    obtain ⟨pair, isNew, rfl⟩ := List.mem_map.mp member
    exact scardWeight_eq unambiguous inside between isNew
  set_weight _ _ := rfl

variable {write : Write} {contributors : Pair → Finset String}

/-- A complete call adds its contributions to the tally. -/
theorem Write.Sound.represents (sound : write.Sound graphName nodes store.members)
    (unambiguous : Unambiguous graphName nodes)
    (represents : (store.tally graphName).Represents (Between nodes) contributors) :
    ((write.complete graphName store).tally graphName).Represents (Between nodes) fun pair =>
      contributors pair ∪ idsAt pair write.contributed := by
  have before : ∀ pair, Between nodes pair →
      store.members (membersKey graphName pair) = contributors pair :=
    fun pair between => (represents pair between).1
  refine represents.next (fun pair between => ?_) (fun pair between => ?_)
  · simp only [Store.tally, Write.complete, saddAll_members unambiguous sound.inside between,
      before pair between]
  · simp only [Store.tally, Write.complete]
    have merged := sound.merged pair between
    rw [before pair between] at merged
    by_cases known : idsAt pair write.contributed ⊆ contributors pair
    · right
      refine ⟨Finset.union_eq_left.mpr known, ?_⟩
      rw [mergeAll_of_notMem fun item member same => merged.mp ⟨item, member, same⟩ known]
    · left
      obtain ⟨item, member, rfl⟩ := merged.mpr known
      obtain ⟨id, added, -⟩ := Finset.not_subset.mp known
      rw [mergeAll_of_mem sound.distinct member, Option.map_some, sound.set_weight,
        sound.weight item member between, before _ between,
        Tally.countOf_of_mem (Finset.mem_union_right _ added)]

variable (levels) in
theorem materializeEdgesBatched_represents {rows : List LineageEdge}
    (unambiguous : Unambiguous graphName nodes)
    (inside : AllBetween nodes (contributions ancestors rows))
    (represents : (store.tally graphName).Represents (Between nodes) contributors) :
    ((materializeEdgesBatched graphName levels ancestors store rows).1.tally graphName).Represents
      (Between nodes) fun pair => contributors pair ∪ idsAt pair (contributions ancestors rows) :=
  (batchWrite_sound unambiguous inside).represents unambiguous represents

end Univiz.Falkor
