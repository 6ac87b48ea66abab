import Univiz.Data.Transition
import Univiz.Falkor.Scan

namespace Univiz.Falkor

open Univiz.Data

/-! Incremental materialisation with interruptions.

A writer adds all members before it merges the first edge, and a later call
skips the pairs whose members are already there.  A call that is cut off between
the two leaves sets that no later call over the same edges turns into edges.
-/

/-- Where a call may be cut off without leaving a set that its edge does not
know of: before it has added a member, or after its last MERGE. -/
def Write.HarmlessStop (graphName : String) (members : MemberSets) (write : Write) : Stop → Prop
  | .before => True
  | .sadd executed => ∀ contribution ∈ write.contributed.take executed,
      contribution.edgeId ∈ members (membersKey graphName contribution.pair)
  | .merge executed => write.items.length ≤ executed

variable {graphName : String} {nodes : Urn → Prop} {write : Write} {store : Store}

def Store.Settled (graphName : String) (nodes : Urn → Prop) (store : Store) : Prop :=
  ∀ pair, Between nodes pair → (store.tally graphName).SettledAt pair

theorem Store.Settled.represents (settled : store.Settled graphName nodes) :
    (store.tally graphName).Represents (Between nodes) (store.tally graphName).members :=
  Tally.settled_iff_represents.mp settled

theorem complete_settled (sound : write.Sound graphName nodes store.members)
    (unambiguous : Unambiguous graphName nodes) (settled : store.Settled graphName nodes) :
    (write.complete graphName store).Settled graphName nodes :=
  fun _ between => (sound.represents unambiguous settled.represents).settled between

theorem saddAll_of_known {members : MemberSets} {contributed : List Contribution}
    (known : ∀ contribution ∈ contributed,
      contribution.edgeId ∈ members (membersKey graphName contribution.pair)) :
    (saddAll graphName members contributed).1 = members := by
  funext key
  ext id
  rw [mem_saddAll]
  constructor
  · intro either
    rcases either with old | ⟨contribution, member, rfl, rfl⟩
    · exact old
    · exact known contribution member
  · exact .inl

theorem stoppedAt_settled {stop : Stop} (sound : write.Sound graphName nodes store.members)
    (unambiguous : Unambiguous graphName nodes) (settled : store.Settled graphName nodes)
    (harmless : write.HarmlessStop graphName store.members stop) :
    (write.stoppedAt graphName store stop).Settled graphName nodes := by
  cases stop with
  | before => exact settled
  | sadd executed =>
      rw [Write.stoppedAt, saddAll_of_known harmless]
      exact settled
  | merge executed =>
      rw [Write.stoppedAt, List.take_of_length_le harmless]
      exact complete_settled sound unambiguous settled

theorem known_of_settled_grown {after : Store} {pair : Pair} {id : String}
    (settled : (store.tally graphName).SettledAt pair)
    (settledAfter : (after.tally graphName).SettledAt pair)
    (kept : after.edges pair = store.edges pair)
    (grown : store.members (membersKey graphName pair) ⊆
      after.members (membersKey graphName pair))
    (added : id ∈ after.members (membersKey graphName pair)) :
    id ∈ store.members (membersKey graphName pair) := by
  by_contra new
  rw [Tally.settledAt_iff] at settled settledAfter
  have same : (after.edges pair).map AggregatedEdge.weight =
      (store.edges pair).map AggregatedEdge.weight := by rw [kept]
  have counts : Tally.countOf (after.members (membersKey graphName pair)) =
      Tally.countOf (store.members (membersKey graphName pair)) :=
    settledAfter.symm.trans (same.trans settled)
  have larger := Finset.card_lt_card
    (Finset.ssubset_iff_subset_ne.mpr ⟨grown, fun equal => new (equal ▸ added)⟩)
  rw [Tally.countOf_of_mem added, Tally.countOf] at counts
  split at counts
  · cases counts
  · exact absurd (Option.some.inj counts) (Nat.ne_of_gt larger)

theorem mem_saddAll_of_idsAt {members : MemberSets} {contributed : List Contribution} {pair : Pair}
    {id : String} (added : id ∈ idsAt pair contributed) :
    id ∈ (saddAll graphName members contributed).1 (membersKey graphName pair) := by
  obtain ⟨contribution, contributes, rfl, rfl⟩ := mem_idsAt.mp added
  exact mem_saddAll.mpr (.inr ⟨contribution, contributes, rfl, rfl⟩)

/-- For one call from a settled store the condition is exact. -/
theorem stoppedAt_settled_iff {stop : Stop} (sound : write.Sound graphName nodes store.members)
    (between : ∀ item ∈ write.items, Between nodes item.pair)
    (unambiguous : Unambiguous graphName nodes) (settled : store.Settled graphName nodes) :
    (write.stoppedAt graphName store stop).Settled graphName nodes ↔
      write.HarmlessStop graphName store.members stop := by
  refine ⟨fun settledAfter => ?_, stoppedAt_settled sound unambiguous settled⟩
  cases stop with
  | before => trivial
  | sadd executed =>
      intro contribution member
      have inside := sound.inside contribution (List.mem_of_mem_take member)
      refine known_of_settled_grown (settled _ inside) (settledAfter _ inside) rfl
        (fun id old => mem_saddAll.mpr (.inl old)) (mem_saddAll_of_idsAt ?_)
      exact mem_idsAt.mpr ⟨contribution, member, rfl, rfl⟩
  | merge executed =>
      by_contra short
      have early : executed < write.items.length := Nat.lt_of_not_le short
      have member : write.items[executed] ∈ write.items := List.getElem_mem early
      have inside := between _ member
      obtain ⟨id, added, new⟩ := Finset.not_subset.mp
        ((sound.merged _ inside).mp ⟨_, member, rfl⟩)
      have unmerged : ∀ item ∈ write.items.take executed,
          item.pair ≠ write.items[executed].pair := by
        intro item earlier
        have distinct := sound.distinct
        rw [← List.take_append_drop executed write.items, List.map_append,
          List.nodup_append] at distinct
        refine distinct.2.2 _ (List.mem_map_of_mem earlier) _ ?_
        rw [List.drop_eq_getElem_cons early]
        exact List.mem_cons_self
      exact new (known_of_settled_grown (settled _ inside) (settledAfter _ inside)
        (mergeAll_of_notMem unmerged) (fun id old => mem_saddAll.mpr (.inl old))
        (mem_saddAll_of_idsAt added))

/-- Ancestor chains that stay within the graph. -/
structure Chains (nodes : Urn → Prop) where
  ancestors : Urn → List Urn
  closed : ∀ urn, nodes urn → ∀ ancestor ∈ ancestors urn, nodes ancestor

/-- The arguments of `on_lineage_edge_written` for an edge of the graph. -/
structure WrittenEdge (nodes : Urn → Prop) where
  sourceUrn : Urn
  targetUrn : Urn
  edgeId : String
  edgeType : String
  source_node : nodes sourceUrn
  target_node : nodes targetUrn

theorem pairsBetween_between (chains : Chains nodes) {sourceUrn targetUrn : Urn}
    (source_node : nodes sourceUrn) (target_node : nodes targetUrn) {pair : Pair}
    (member : pair ∈ pairsBetween (sourceUrn :: chains.ancestors sourceUrn)
      (targetUrn :: chains.ancestors targetUrn)) : Between nodes pair := by
  obtain ⟨inSource, inTarget, -⟩ := mem_pairsBetween.mp member
  constructor
  · cases List.mem_cons.mp inSource with
    | inl same => exact same ▸ source_node
    | inr above => exact chains.closed _ source_node _ above
  · cases List.mem_cons.mp inTarget with
    | inl same => exact same ▸ target_node
    | inr above => exact chains.closed _ target_node _ above

theorem contributions_between (chains : Chains nodes) {rows : List LineageEdge}
    (within : ∀ edge ∈ rows, nodes edge.sourceUrn ∧ nodes edge.targetUrn) :
    AllBetween nodes (contributions chains.ancestors rows) := by
  intro contribution member
  obtain ⟨edge, scanned, inPairs, -⟩ := mem_contributions.mp member
  exact pairsBetween_between chains (within edge scanned).1 (within edge scanned).2 inPairs

theorem edgeContributions_between (chains : Chains nodes) (edge : WrittenEdge nodes) :
    AllBetween nodes (edgeContributions chains.ancestors edge.sourceUrn edge.targetUrn edge.edgeId
      edge.edgeType) := by
  intro contribution member
  obtain ⟨pair, inPairs, rfl⟩ := List.mem_map.mp member
  exact pairsBetween_between chains edge.source_node edge.target_node inPairs

/-- What persists between attempts, and the cursor of the attempt that is
running, if one is. -/
structure Session where
  store : Store
  lastCursor : Option String
  cursor : Option (Option String)

/-- An attempt starts, processes a page or is cut off while it processes one;
edges are written between pages.  `saved` says whether the checkpoint after a
page was persisted. -/
inductive Event (nodes : Urn → Prop) where
  | start
  | batch (chains : Chains nodes) (saved : Bool)
  | batchStopped (chains : Chains nodes) (stop : Stop)
  | written (chains : Chains nodes) (edge : WrittenEdge nodes)
  | writtenStopped (chains : Chains nodes) (edge : WrittenEdge nodes) (stop : Stop)

/-- What the provider is configured with, and the scan over the fixed graph. -/
structure Materializer where
  graphName : String
  levels : Urn → Option Int
  levelDigest : Option String
  rows : List LineageEdge
  query : PagedQuery cursorKey rows
  batchSize : Nat

namespace Materializer

variable (provider : Materializer)

/-- The writer call for the page after a cursor. -/
def pageWrite (chains : Chains nodes) (store : Store) (cursor : Option String) : Write :=
  batchWrite provider.graphName provider.levels chains.ancestors store
    (provider.query.page provider.batchSize cursor)

def writtenWrite (chains : Chains nodes) (store : Store) (edge : WrittenEdge nodes) : Write :=
  edgeWrite provider.graphName provider.levels provider.levelDigest chains.ancestors store
    edge.sourceUrn edge.targetUrn edge.edgeId edge.edgeType

/-- One pass of the loop that is not cut off. -/
def afterBatch (session : Session) (chains : Chains nodes) (saved : Bool)
    (cursor : Option String) : Session :=
  match (provider.query.page provider.batchSize cursor).getLast? with
  | none => { session with cursor := none }
  | some last =>
      { store := (provider.pageWrite chains session.store cursor).complete
          provider.graphName session.store
        lastCursor := if saved then some (cursorKey last) else session.lastCursor
        cursor :=
          if (provider.query.page provider.batchSize cursor).length < provider.batchSize then none
          else some (some (cursorKey last)) }

def step (session : Session) : Event nodes → Option Session
  | .start =>
      match session.cursor with
      | some _ => none
      | none => some { session with cursor := some (session.lastCursor.filter (· ≠ "")) }
  | .batch chains saved => session.cursor.map (provider.afterBatch session chains saved)
  | .batchStopped chains stop =>
      session.cursor.map fun cursor =>
        { session with
          store := (provider.pageWrite chains session.store cursor).stoppedAt
            provider.graphName session.store stop
          cursor := none }
  | .written chains edge =>
      some { session with
        store := (provider.writtenWrite chains session.store edge).complete
          provider.graphName session.store }
  | .writtenStopped chains edge stop =>
      some { session with
        store := (provider.writtenWrite chains session.store edge).stoppedAt
          provider.graphName session.store stop }

/-- Every interruption falls before the first new member or after the last MERGE. -/
def Harmless (session : Session) : Event nodes → Prop
  | .batchStopped chains stop => ∀ cursor, session.cursor = some cursor →
      (provider.pageWrite chains session.store cursor).HarmlessStop provider.graphName
        session.store.members stop
  | .writtenStopped chains edge stop =>
      (provider.writtenWrite chains session.store edge).HarmlessStop provider.graphName
        session.store.members stop
  | _ => True

def Within (nodes : Urn → Prop) : Prop :=
  ∀ edge ∈ provider.rows, nodes edge.sourceUrn ∧ nodes edge.targetUrn

variable {provider}

theorem pageWrite_sound (unambiguous : Unambiguous provider.graphName nodes)
    (within : provider.Within nodes) (chains : Chains nodes) (store : Store)
    (cursor : Option String) :
    (provider.pageWrite chains store cursor).Sound provider.graphName nodes store.members := by
  refine batchWrite_sound unambiguous (contributions_between chains fun edge member => ?_)
  exact within edge (List.mem_of_mem_filter
    ((provider.query.perm cursor).subset (List.mem_of_mem_take member)))

theorem writtenWrite_sound (unambiguous : Unambiguous provider.graphName nodes)
    (chains : Chains nodes) (store : Store) (edge : WrittenEdge nodes) :
    (provider.writtenWrite chains store edge).Sound provider.graphName nodes store.members :=
  edgeWrite_sound unambiguous (edgeContributions_between chains edge)

theorem step_settled (unambiguous : Unambiguous provider.graphName nodes)
    (within : provider.Within nodes) {session next : Session} {event : Event nodes}
    (settled : session.store.Settled provider.graphName nodes)
    (harmless : provider.Harmless session event)
    (stepped : provider.step session event = some next) :
    next.store.Settled provider.graphName nodes := by
  cases event with
  | start =>
      simp only [step] at stepped
      split at stepped
      · cases stepped
      · cases stepped
        exact settled
  | batch chains saved =>
      obtain ⟨cursor, -, rfl⟩ := Option.map_eq_some_iff.mp stepped
      unfold afterBatch
      split
      · exact settled
      · exact complete_settled (pageWrite_sound unambiguous within chains _ cursor) unambiguous
          settled
  | batchStopped chains stop =>
      obtain ⟨cursor, running, rfl⟩ := Option.map_eq_some_iff.mp stepped
      exact stoppedAt_settled (pageWrite_sound unambiguous within chains _ cursor) unambiguous
        settled (harmless cursor running)
  | written chains edge =>
      cases stepped
      exact complete_settled (writtenWrite_sound unambiguous chains _ edge) unambiguous settled
  | writtenStopped chains edge stop =>
      cases stepped
      exact stoppedAt_settled (writtenWrite_sound unambiguous chains _ edge) unambiguous settled
        harmless

theorem step_batch {chains : Chains nodes} {saved : Bool} {session : Session}
    {cursor : Option String} (running : session.cursor = some cursor) :
    provider.step session (.batch chains saved) =
      some (provider.afterBatch session chains saved cursor) := by
  rw [step, running, Option.map_some]

theorem exists_run_batches (provider : Materializer) (chains : Chains nodes)
    (cursor : Option String) (progress : Progress) (session : Session)
    (running : session.cursor = some cursor) (same : session.store = progress.store) :
    ∃ (pages : Nat) (finished : Session),
      run provider.step session (List.replicate pages (.batch chains true)) = some finished ∧
      finished.cursor = none ∧
      finished.store = (provider.query.scan provider.batchSize
        (materializePage provider.graphName provider.levels chains.ancestors) progress
        cursor).store := by
  induction cursor using provider.query.scan_induction provider.batchSize
    generalizing progress session with
  | empty cursor ended =>
      refine ⟨1, provider.afterBatch session chains true cursor, ?_, ?_, ?_⟩
      · rw [List.replicate_one, run, step_batch running]
        rfl
      · simp [afterBatch, ended]
      · simp [afterBatch, ended, provider.query.scan_empty ended, same]
  | short cursor isShort nonempty =>
      obtain ⟨last, found⟩ := Option.ne_none_iff_exists'.mp
        (fun absent => nonempty (List.getLast?_eq_none_iff.mp absent))
      refine ⟨1, provider.afterBatch session chains true cursor, ?_, ?_, ?_⟩
      · rw [List.replicate_one, run, step_batch running]
        rfl
      · simp only [afterBatch, found, if_pos isShort]
      · simp only [afterBatch, found, provider.query.scan_short isShort nonempty, same]
        rfl
  | full cursor last isFull found ih =>
      have nextCursor : (provider.afterBatch session chains true cursor).cursor =
          some (some (cursorKey last)) := by
        simp only [afterBatch, found, if_neg (Nat.not_lt.mpr isFull)]
      have nextStore : (provider.afterBatch session chains true cursor).store =
          (materializePage provider.graphName provider.levels chains.ancestors progress
            (provider.query.page provider.batchSize cursor)).store := by
        simp only [afterBatch, found, same]
        rfl
      obtain ⟨pages, finished, ran, done, store⟩ := ih _ _ nextCursor nextStore
      refine ⟨pages + 1, finished, ?_, done, ?_⟩
      · rw [List.replicate_succ, run, step_batch running]
        exact ran
      · rw [store, provider.query.scan_full isFull found]

/-- An attempt that is never cut off does what the loop does. -/
theorem exists_run_attempt (provider : Materializer) (chains : Chains nodes) (session : Session)
    (idle : session.cursor = none) :
    ∃ (pages : Nat) (finished : Session),
      run provider.step session (.start :: List.replicate pages (.batch chains true)) =
        some finished ∧
      finished.cursor = none ∧
      finished.store = (materializeIncremental provider.graphName provider.levels chains.ancestors
        provider.query provider.batchSize session.lastCursor session.store).store := by
  have started : provider.step session (.start : Event nodes) =
      some { session with cursor := some (session.lastCursor.filter (· ≠ "")) } := by
    rw [step, idle]
  obtain ⟨pages, finished, ran, done, store⟩ :=
    exists_run_batches provider chains (session.lastCursor.filter (· ≠ "")) ⟨session.store, 0, 0⟩
      { session with cursor := some (session.lastCursor.filter (· ≠ "")) } rfl rfl
  refine ⟨pages, finished, ?_, done, store⟩
  rw [run, started]
  exact ran

/-- After any run whose interruptions are all harmless, every pair has its edge
exactly when its set has a member, and the weight is the size of the set. -/
theorem run_settled (unambiguous : Unambiguous provider.graphName nodes)
    (within : provider.Within nodes) {session last : Session} {events : List (Event nodes)}
    (settled : session.store.Settled provider.graphName nodes)
    (harmless : Meets provider.step provider.Harmless session events)
    (ran : run provider.step session events = some last) :
    last.store.Settled provider.graphName nodes := by
  have kept : ∀ (session : Session) (event : Event nodes) (next : Session),
      session.store.Settled provider.graphName nodes → provider.Harmless session event →
      provider.step session event = some next →
      next.store.Settled provider.graphName nodes :=
    fun _ _ _ => step_settled unambiguous within
  exact run_invariant (fun session => session.store.Settled provider.graphName nodes) kept settled
    harmless ran

def twoNodes (urn : Urn) : Prop := urn = "a" ∨ urn = "b"

theorem twoNodes_unambiguous (graphName : String) : Unambiguous graphName twoNodes :=
  unambiguous_of_no_colon graphName fun urn node => by
    cases node with
    | inl same => rw [same]; decide
    | inr same => rw [same]; decide

def flatChains : Chains twoNodes where
  ancestors _ := []
  closed _ _ _ member := nomatch member

def singleEdge : Materializer where
  graphName := "g"
  levels _ := none
  levelDigest := none
  rows := [⟨"a", "b", "FLOWS_TO", some "1"⟩]
  query := .ofSorted _ (List.pairwise_singleton _ _)
  batchSize := 10

theorem singleEdge_within : singleEdge.Within twoNodes := by
  intro edge member
  rw [List.mem_singleton.mp member]
  exact ⟨.inl rfl, .inr rfl⟩

def idleSession : Session := ⟨.empty, none, none⟩

theorem idleSession_settled (graphName : String) (nodes : Urn → Prop) :
    idleSession.store.Settled graphName nodes :=
  fun _ _ => Tally.settledAt_iff.mpr rfl

/-- An attempt that stops at the page, then one that runs to its end. -/
def stoppedThenRetried (stop : Stop) : List (Event twoNodes) :=
  [.start, .batchStopped flatChains stop, .start, .batch flatChains true]

theorem stoppedBefore_harmless :
    Meets singleEdge.step singleEdge.Harmless idleSession (stoppedThenRetried .before) := by
  apply meets_of_forall
  intro event member session
  cases event with
  | batchStopped chains stop =>
      intro page fetched
      have same : stop = .before := by
        simp only [stoppedThenRetried, List.mem_cons, reduceCtorEq, false_or, or_false,
          List.not_mem_nil, Event.batchStopped.injEq] at member
        exact member.2
      rw [same]
      trivial
  | _ => trivial

/-- The first attempt stops before its SADDs, the second one repairs it. -/
theorem run_settled_stoppedBefore :
    ∃ last, run singleEdge.step idleSession (stoppedThenRetried .before) = some last ∧
      last.cursor = none ∧ last.store.Settled singleEdge.graphName twoNodes := by
  obtain ⟨last, ran, finished⟩ := Option.map_eq_some_iff.mp
    (show (run singleEdge.step idleSession (stoppedThenRetried .before)).map Session.cursor =
      some none by decide)
  have settled : last.store.Settled singleEdge.graphName twoNodes :=
    run_settled (twoNodes_unambiguous singleEdge.graphName) singleEdge_within
      (idleSession_settled singleEdge.graphName twoNodes) stoppedBefore_harmless ran
  exact ⟨last, ran, finished, settled⟩

/-- The first attempt is cut off after its SADDs.  The second completes and
merges nothing: the set of `a` and `b` has a member and their edge is missing. -/
theorem stoppedAfterSadd_not_repaired :
    ¬ ∀ (nodes : Urn → Prop) (provider : Materializer) (events : List (Event nodes))
      (chains : Chains nodes) (saved : Bool) (last : Session),
      Unambiguous provider.graphName nodes → provider.Within nodes →
      run provider.step idleSession (events ++ [.batch chains saved]) = some last →
      last.cursor = none → last.store.Settled provider.graphName nodes := by
  intro always
  obtain ⟨last, ran, outcome⟩ := Option.map_eq_some_iff.mp
    (show (run singleEdge.step idleSession (stoppedThenRetried (.sadd 1))).map
        (fun last => (last.cursor, last.store.edges ("a", "b"),
          decide ("1" ∈ last.store.members (membersKey "g" ("a", "b"))))) =
      some (none, none, true) by decide)
  obtain ⟨finished, missing, counted⟩ : last.cursor = none ∧ last.store.edges ("a", "b") = none ∧
      decide ("1" ∈ last.store.members (membersKey "g" ("a", "b"))) = true := by
    simpa only [Prod.mk.injEq] using outcome
  have settled := always twoNodes singleEdge
    [.start, .batchStopped flatChains (.sadd 1), .start] flatChains true last
    (twoNodes_unambiguous "g") singleEdge_within ran finished ("a", "b") ⟨.inl rfl, .inr rfl⟩
  have present : ((last.store.edges ("a", "b")).map AggregatedEdge.weight).isSome = true :=
    settled.present_iff.mpr ⟨"1", of_decide_eq_true counted⟩
  rw [missing] at present
  cases present

end Materializer

end Univiz.Falkor
