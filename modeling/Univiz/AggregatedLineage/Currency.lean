import Univiz.AggregatedLineage.Fetches

namespace Univiz.AggregatedLineage

open Univiz.Data

/-! When every hook shows its last call, and a hit is what a fetch would have answered. -/

variable {ρ α δ : Type}

structure UseAggregatedLineage.Shows (hook : UseAggregatedLineage α δ)
    (result : AggregatedEdgeResult α) : Prop where
  edges : ∀ id, (hook.aggregatedEdges.get id).map (·.aggregated) =
    (addEdges .empty result.aggregatedEdges).get id
  truncated : hook.truncated = result.truncated.getD false

/-- The fetch has asked the same, and the result is the union of what all its chunks returned. -/
structure Fetch.Provides (fetch : Fetch ρ α) (request : AggregatedEdgeRequest ρ)
    (result : AggregatedEdgeResult α) : Prop where
  done : fetch.Done
  same : fetch.request.Same request
  succeeded : rejected fetch.settled = []
  union : IsUnion result (fulfilled fetch.settled)

namespace Hooks

variable {state next : Hooks ρ α δ} {fetch later : Fetch ρ α} {index : Nat}
  {request : AggregatedEdgeRequest ρ}

def Settled (state : Hooks ρ α δ) (hook : Nat) : Prop :=
  ∀ fetch ∈ state.fetches, fetch.hook = hook → fetch.Done

def result (state : Hooks ρ α δ) : Answer α → Option (AggregatedEdgeResult α)
  | .hit result => some result
  | .fetch index => state.fetches[index]?.map fun fetch => mergeResults (fulfilled fetch.settled)

structure Current (state : Hooks ρ α δ) : Prop where
  latest : ∀ hook, state.Settled hook → ∀ answer ∈ state.latest hook,
    ∀ result ∈ state.result answer, (state.hooks hook).Shows result
  shared : ∀ hit ∈ state.hits, ∃ fetch ∈ state.fetches, fetch.Provides hit.1 hit.2

/-- The texts of a call have other hashes than those of the entries. -/
def CollisionFree (state : Hooks ρ α δ) : HookEvent ρ α → Prop
  | .fetchAggregated call _ => ∀ request ∈ call.request,
      ∀ stored ∈ state.aggregatedEdgeCache.entries, stored.2.request.Distinguished request
  | .settles _ _ _ _ => True

/-- An entry that is fresh and looks like a call is from the same call, all of whose chunks
succeeded.  The last fetch of a hook to settle is the last call of the hook. -/
def Orderly (state : Hooks ρ α δ) : HookEvent ρ α → Prop
  | .fetchAggregated call now => ∀ request ∈ call.request,
      ∀ stored ∈ state.aggregatedEdgeCache.entries, now - stored.2.timestamp < call.cacheTtl →
        stored.2.request.Alike request →
          stored.2.request.Same request ∧ rejected stored.2.settled = []
  | .settles index chunk outcome _ => ∀ fetch ∈ state.fetches[index]?,
      (fetch.settle chunk outcome).Done →
      (∀ other ∈ state.fetches.eraseIdx index, other.hook = fetch.hook → other.Done) →
      state.latest fetch.hook = some (.fetch index)

instance : DecidableRel (@CollisionFree ρ α δ)
  | _, .fetchAggregated _ _ => inferInstanceAs (Decidable (∀ request ∈ _, _))
  | _, .settles _ _ _ _ => isTrue trivial

instance [DecidableEq ρ] [DecidableEq α] : DecidableRel (@Orderly ρ α δ)
  | _, .fetchAggregated _ _ => inferInstanceAs (Decidable (∀ request ∈ _, _))
  | _, .settles _ _ _ _ => inferInstanceAs (Decidable (∀ fetch ∈ _, _))

/-- An entry has the merged result of a fetch under the key of its request. -/
structure Sound (state : Hooks ρ α δ) : Prop where
  keyed : ∀ key, ∀ entry ∈ state.aggregatedEdgeCache.get key, key = entry.request.getCacheKey
  merged : ∀ key, ∀ entry ∈ state.aggregatedEdgeCache.get key,
    entry.result = mergeResults (fulfilled entry.settled)
  fetched : ∀ key, ∀ entry ∈ state.aggregatedEdgeCache.get key, ∃ fetch ∈ state.fetches,
    fetch.Done ∧ fetch.request = entry.request ∧ fetch.settled = entry.settled
  known : ∀ hook index, state.latest hook = some (.fetch index) →
    ∃ fetch, state.fetches[index]? = some fetch ∧ fetch.hook = hook
  current : state.Current

theorem shows_apply (hook : UseAggregatedLineage α δ) (result : AggregatedEdgeResult α) :
    (hook.apply result).Shows result := by
  suffices general : ∀ (edges : List (AggregatedEdgeInfo α))
      (states : OrderedMap String (AggregatedEdgeState α δ)) (infos : EdgesById α),
      (∀ id, (states.get id).map (·.aggregated) = infos.get id) →
      ∀ id, ((edges.foldl (fun edges agg => edges.set agg.id {
        aggregated := agg
        state := ((hook.aggregatedEdges.get agg.id).map (·.state)).getD .collapsed
        detailedEdges := ((hook.aggregatedEdges.get agg.id).map (·.detailedEdges)).getD [] })
          states).get id).map (·.aggregated) = (addEdges infos edges).get id from
    ⟨general result.aggregatedEdges .empty .empty fun _ => rfl, rfl⟩
  intro edges
  induction edges with
  | nil => exact fun _ _ same => same
  | cons agg rest ih =>
      intro states infos same
      refine ih _ _ fun id => ?_
      rw [OrderedMap.get_set, OrderedMap.get_set]
      split
      · rfl
      · exact same id

theorem shows_finish (hook : UseAggregatedLineage α δ) (settled : List (SettledResult α)) :
    (hook.finish settled).Shows (mergeResults (fulfilled settled)) :=
  have shown := shows_apply hook (mergeResults (fulfilled settled))
  ⟨shown.edges, shown.truncated⟩

theorem chunks_ne_nil (sourceUrns : List String) : chunks sourceUrns ≠ [] := by
  simp only [chunks]
  split
  · rename_i many
    rw [Ne, List.map_eq_nil_iff, List.range_eq_nil]
    unfold aggregatedFetchBatchSize at *
    omega
  · exact List.cons_ne_nil _ _

theorem not_done_start (hook : Nat) : ¬ (Fetch.start hook request : Fetch ρ α).Done := by
  intro done
  obtain ⟨chunk, rest, shape⟩ := List.exists_cons_of_ne_nil (chunks_ne_nil request.sourceUrns)
  refine done none ?_ rfl
  rw [Fetch.start, shape]
  exact List.mem_cons_self

theorem not_done_of_inFlight {limit chunk : Nat} (inFlight : fetch.InFlight limit chunk) :
    ¬ fetch.Done :=
  fun done => done none (List.mem_of_getElem? inFlight.1) rfl

theorem mem_put_of_done (found : state.fetches[index]? = some fetch) (pending : ¬ fetch.Done)
    {other : Fetch ρ α} (member : other ∈ state.fetches) (done : other.Done) :
    other ∈ (state.put index later).fetches := by
  obtain ⟨place, listed⟩ := List.mem_iff_getElem?.mp member
  have apart : index ≠ place := by
    rintro rfl
    cases found.symm.trans listed
    exact pending done
  refine List.mem_of_getElem? (i := place) ?_
  rw [put, List.getElem?_set_ne apart]
  exact listed

/-- The other hooks see nothing of a fetch that moves on. -/
theorem settled_put_of_ne (found : state.fetches[index]? = some fetch)
    {hook : Nat} (apart : fetch.hook ≠ hook) (settled : (state.put index later).Settled hook) :
    state.Settled hook := by
  intro other member same
  obtain ⟨place, listed⟩ := List.mem_iff_getElem?.mp member
  have away : index ≠ place := by
    rintro rfl
    cases found.symm.trans listed
    exact apart same
  refine settled other (List.mem_of_getElem? (i := place) ?_) same
  rw [put, List.getElem?_set_ne away]
  exact listed

theorem result_put_of_ne (sound : state.Sound) (found : state.fetches[index]? = some fetch)
    {hook : Nat} (apart : fetch.hook ≠ hook) {answer : Answer α}
    (last : state.latest hook = some answer) :
    (state.put index later).result answer = state.result answer := by
  cases answer with
  | hit result => rfl
  | fetch place =>
      have away : index ≠ place := by
        rintro rfl
        obtain ⟨other, listed, same⟩ := sound.known hook index last
        cases found.symm.trans listed
        exact apart same
      rw [result, result, put, List.getElem?_set_ne away]

theorem shared_put (sound : state.Sound) (found : state.fetches[index]? = some fetch)
    (pending : ¬ fetch.Done) : ∀ hit ∈ (state.put index later).hits,
      ∃ fetch ∈ (state.put index later).fetches, fetch.Provides hit.1 hit.2 := by
  intro hit member
  obtain ⟨other, listed, provides⟩ := sound.current.shared hit member
  exact ⟨other, mem_put_of_done found pending listed provides.done, provides⟩

theorem known_put (sound : state.Sound) (found : state.fetches[index]? = some fetch)
    (owner : later.hook = fetch.hook) {hook place : Nat}
    (last : state.latest hook = some (.fetch place)) :
    ∃ fetch, (state.put index later).fetches[place]? = some fetch ∧ fetch.hook = hook := by
  obtain ⟨other, listed, same⟩ := sound.known hook place last
  by_cases here : index = place
  · subst here
    cases found.symm.trans listed
    exact ⟨later, List.getElem?_set_self (List.getElem?_eq_some_iff.mp found).1,
      owner.trans same⟩
  · refine ⟨other, ?_, same⟩
    rw [put, List.getElem?_set_ne here]
    exact listed

theorem fetched_put (sound : state.Sound) (found : state.fetches[index]? = some fetch)
    (pending : ¬ fetch.Done) {key : String} {entry : CacheEntry ρ α}
    (stored : state.aggregatedEdgeCache.get key = some entry) :
    ∃ fetch ∈ (state.put index later).fetches,
      fetch.Done ∧ fetch.request = entry.request ∧ fetch.settled = entry.settled := by
  obtain ⟨other, listed, done, same⟩ := sound.fetched key entry stored
  exact ⟨other, mem_put_of_done found pending listed done, done, same⟩

theorem put_sound (sound : state.Sound) (found : state.fetches[index]? = some fetch)
    (pending : ¬ fetch.Done) (owner : later.hook = fetch.hook) (unfinished : ¬ later.Done) :
    (state.put index later).Sound := by
  refine ⟨sound.keyed, sound.merged, fun key entry stored => fetched_put sound found pending stored,
    fun hook place last => known_put sound found owner last, ?_, shared_put sound found pending⟩
  intro hook settled answer last result shown
  by_cases own : fetch.hook = hook
  · refine absurd (settled later ?_ (owner.trans own)) unfinished
    exact List.mem_of_getElem? (List.getElem?_set_self (List.getElem?_eq_some_iff.mp found).1)
  · rw [result_put_of_ne sound found own last] at shown
    exact sound.current.latest hook (settled_put_of_ne found own settled) answer last result shown

theorem get_evict {cache : OrderedMap String (CacheEntry ρ α)} {key : String}
    {entry : CacheEntry ρ α} (found : (evict cache).get key = some entry) :
    cache.get key = some entry := by
  simp only [evict] at found
  split at found
  · split at found
    · exact found
    · rw [OrderedMap.get_erase] at found
      split at found
      · cases found
      · exact found
  · exact found

/-- The results of a fetch are stored under its key. -/
theorem get_complete {now : Int} {key : String} {entry : CacheEntry ρ α}
    (present : entry ∈ (state.complete later now).aggregatedEdgeCache.get key) :
    key = later.request.getCacheKey ∧ entry.result = mergeResults (fulfilled later.settled) ∧
        entry.request = later.request ∧ entry.settled = later.settled ∨
      state.aggregatedEdgeCache.get key = some entry := by
  rw [Option.mem_def, complete, OrderedMap.get_set] at present
  split at present
  · rename_i same
    cases present
    exact .inl ⟨same.symm, rfl, rfl, rfl⟩
  · exact .inr (get_evict present)

theorem complete_sound (sound : state.Sound) (found : state.fetches[index]? = some fetch)
    (pending : ¬ fetch.Done) (owner : later.hook = fetch.hook) (done : later.Done) (now : Int)
    (last : (∀ other ∈ state.fetches.eraseIdx index, other.hook = fetch.hook → other.Done) →
      state.latest fetch.hook = some (.fetch index)) :
    ((state.put index later).complete later now).Sound := by
  have here : (state.put index later).fetches[index]? = some later :=
    List.getElem?_set_self (List.getElem?_eq_some_iff.mp found).1
  refine ⟨?_, ?_, ?_, fun hook place latest => known_put sound found owner latest, ?_,
    shared_put sound found pending⟩
  · intro key entry present
    rcases get_complete present with ⟨same, -, request, -⟩ | old
    · rw [same, request]
    · exact sound.keyed key entry old
  · intro key entry present
    rcases get_complete present with ⟨-, merged, -, settled⟩ | old
    · rw [merged, settled]
    · exact sound.merged key entry old
  · intro key entry present
    rcases get_complete present with ⟨-, -, request, settled⟩ | old
    · exact ⟨later, List.mem_of_getElem? here, done, request.symm, settled.symm⟩
    · exact fetched_put sound found pending old
  · intro hook settled answer latest result shown
    by_cases own : fetch.hook = hook
    · have others : ∀ other ∈ state.fetches.eraseIdx index,
          other.hook = fetch.hook → other.Done := by
        intro other member same
        obtain ⟨place, apart, listed⟩ := List.mem_eraseIdx_iff_getElem?.mp member
        refine settled other (List.mem_of_getElem? (i := place) ?_) (same.trans own)
        exact (List.getElem?_set_ne (Ne.symm apart)).trans listed
      have mine : state.latest hook = some (.fetch index) := own ▸ last others
      cases mine.symm.trans latest
      have merged : (state.put index later).result (.fetch index) =
          some (mergeResults (fulfilled later.settled)) := by
        rw [Hooks.result, here]
        rfl
      cases merged.symm.trans shown
      have visible : ((state.put index later).complete later now).hooks hook =
          ((state.put index later).hooks later.hook).finish later.settled := by
        rw [← own, ← owner, complete]
        exact Function.update_self _ _ _
      rw [visible]
      exact shows_finish _ _
    · have visible : ((state.put index later).complete later now).hooks hook =
          state.hooks hook := Function.update_of_ne (by rw [owner]; exact Ne.symm own) _ _
      have same : ((state.put index later).complete later now).result answer =
          state.result answer := result_put_of_ne sound found own latest
      rw [same] at shown
      rw [visible]
      exact sound.current.latest hook (settled_put_of_ne found own settled) answer latest result
        shown

theorem miss_sound (sound : state.Sound) (hook : Nat) : (state.miss hook request).Sound := by
  have old {fetch : Fetch ρ α} (member : fetch ∈ state.fetches) :
      fetch ∈ (state.miss hook request).fetches := List.mem_append_left _ member
  have kept {place : Nat} {fetch : Fetch ρ α} (listed : state.fetches[place]? = some fetch) :
      (state.miss hook request).fetches[place]? = some fetch :=
    (List.getElem?_append_left (List.getElem?_eq_some_iff.mp listed).1).trans listed
  have added : (state.miss hook request).fetches[state.fetches.length]? =
      some (.start hook request) := by
    rw [miss, List.getElem?_append_right (Nat.le_refl _), Nat.sub_self]
    rfl
  refine ⟨sound.keyed, sound.merged, ?_, ?_, ?_, ?_⟩
  · intro key entry stored
    obtain ⟨fetch, member, origin⟩ := sound.fetched key entry stored
    exact ⟨fetch, old member, origin⟩
  · intro other place last
    by_cases own : other = hook
    · subst own
      cases (Function.update_self _ _ _).symm.trans last
      exact ⟨_, added, rfl⟩
    · obtain ⟨fetch, listed, same⟩ :=
        sound.known other place ((Function.update_of_ne own _ _).symm.trans last)
      exact ⟨fetch, kept listed, same⟩
  · intro other settled answer last result shown
    by_cases own : other = hook
    · exact absurd (settled _ (List.mem_of_getElem? added) own.symm) (not_done_start hook)
    · have last : state.latest other = some answer :=
        (Function.update_of_ne own _ _).symm.trans last
      have visible : (state.miss hook request).hooks other = state.hooks other :=
        Function.update_of_ne own _ _
      have same : (state.miss hook request).result answer = state.result answer := by
        cases answer with
        | hit result => rfl
        | fetch place =>
            obtain ⟨fetch, listed, -⟩ := sound.known other place last
            rw [Hooks.result, Hooks.result, kept listed, listed]
      rw [same] at shown
      rw [visible]
      exact sound.current.latest other (fun fetch member => settled fetch (old member)) answer last
        result shown
  · intro hit member
    obtain ⟨fetch, listed, provides⟩ := sound.current.shared hit member
    exact ⟨fetch, old listed, provides⟩

theorem hit_sound (sound : state.Sound) (hook : Nat) {cacheTtl now : Int}
    {entry : CacheEntry ρ α} (found : state.cached request cacheTtl now = some entry)
    (same : entry.request.Same request) (succeeded : rejected entry.settled = []) :
    (state.hit hook request entry.result).Sound := by
  have stored := (Option.filter_eq_some_iff.mp found).1
  refine ⟨sound.keyed, sound.merged, sound.fetched, ?_, ?_, ?_⟩
  · intro other place last
    by_cases own : other = hook
    · subst own
      cases (Function.update_self _ _ _).symm.trans last
    · exact sound.known other place ((Function.update_of_ne own _ _).symm.trans last)
  · intro other settled answer last result shown
    by_cases own : other = hook
    · subst own
      cases (Function.update_self _ _ _).symm.trans last
      cases shown
      have visible : (state.hit other request entry.result).hooks other =
          (state.hooks other).apply entry.result := Function.update_self _ _ _
      rw [visible]
      exact shows_apply _ _
    · have visible : (state.hit hook request entry.result).hooks other = state.hooks other :=
        Function.update_of_ne own _ _
      have last : state.latest other = some answer :=
        (Function.update_of_ne own _ _).symm.trans last
      rw [visible]
      cases answer with
      | hit _ => exact sound.current.latest other settled _ last result shown
      | fetch place => exact sound.current.latest other settled _ last result shown
  · intro hit member
    rcases List.mem_append.mp member with old | new
    · exact sound.current.shared hit old
    · cases List.mem_singleton.mp new
      obtain ⟨fetch, listed, done, asked, outcomes⟩ := sound.fetched _ entry stored
      refine ⟨fetch, listed, done, asked ▸ same, outcomes ▸ succeeded, ?_⟩
      rw [sound.merged _ entry stored, outcomes]
      exact mergeResults_isUnion _

theorem fetchAggregated_sound {limit : Nat} {call : FetchCall ρ} {now : Int} (sound : state.Sound)
    (collisionFree : state.CollisionFree (.fetchAggregated call now))
    (orderly : state.Orderly (.fetchAggregated call now))
    (stepped : step limit state (.fetchAggregated call now) = some next) : next.Sound := by
  simp only [step] at stepped
  split at stepped
  · cases stepped
    exact sound
  · rename_i request asked
    split at stepped
    · rename_i entry found
      cases stepped
      obtain ⟨stored, fresh⟩ := Option.filter_eq_some_iff.mp found
      have listed := OrderedMap.get_eq_some.mp stored
      have alike : entry.request.Alike request :=
        alike_of_getCacheKey (collisionFree request asked _ listed)
          (sound.keyed _ entry stored).symm
      obtain ⟨same, succeeded⟩ :=
        orderly request asked _ listed (of_decide_eq_true fresh) alike
      exact hit_sound sound call.hook found same succeeded
    · cases stepped
      exact miss_sound sound call.hook

theorem settles_sound {limit chunk : Nat} {outcome : SettledResult α} {now : Int}
    (sound : state.Sound) (orderly : state.Orderly (.settles index chunk outcome now))
    (stepped : step limit state (.settles index chunk outcome now) = some next) :
    next.Sound := by
  obtain ⟨fetch, found, stepped⟩ := Option.bind_eq_some_iff.mp stepped
  split at stepped
  · rename_i inFlight
    have pending := not_done_of_inFlight inFlight
    have owner : (fetch.settle chunk outcome).hook = fetch.hook := rfl
    dsimp only at stepped
    split at stepped
    · rename_i done
      cases stepped
      exact complete_sound sound found pending owner done now (orderly fetch found done)
    · rename_i unfinished
      cases stepped
      exact put_sound sound found pending owner unfinished
  · cases stepped

theorem start_sound : (start : Hooks ρ α δ).Sound := by
  have empty {key : String} {entry : CacheEntry ρ α}
      (stored : entry ∈ (start : Hooks ρ α δ).aggregatedEdgeCache.get key) : False := by
    cases stored
  have silent {hook : Nat} {answer : Answer α}
      (last : (start : Hooks ρ α δ).latest hook = some answer) : False := by
    cases last
  exact {
    keyed := fun _ _ stored => (empty stored).elim
    merged := fun _ _ stored => (empty stored).elim
    fetched := fun _ _ stored => (empty stored).elim
    known := fun _ _ last => (silent last).elim
    current := {
      latest := fun _ _ _ last => (silent last).elim
      shared := fun _ member => (List.not_mem_nil member).elim } }

/-- Without collisions, the hooks are current after every orderly run. -/
theorem run_orderly_current {limit : Nat} {events : List (HookEvent ρ α)} {last : Hooks ρ α δ}
    (collisionFree : Meets (step limit) CollisionFree (start : Hooks ρ α δ) events)
    (orderly : Meets (step limit) Orderly (start : Hooks ρ α δ) events)
    (ran : run (step limit) start events = some last) : last.Current := by
  have sound : last.Sound := by
    refine run_invariant Sound ?_ start_sound (meets_and collisionFree orderly) ran
    intro state event next sound allowed stepped
    cases event with
    | fetchAggregated call now => exact fetchAggregated_sound sound allowed.1 allowed.2 stepped
    | settles index chunk outcome now => exact settles_sound sound allowed.2 stepped
  exact sound.current

def response (truncated : Bool) : AggregatedEdgeResult Nat :=
  ⟨[⟨"agg-1", 7⟩], some 7, some truncated, none, none⟩

def visible (hook : Nat) (workspace : String) (sourceUrns : List String) :
    HookEvent String Nat :=
  .fetchAggregated ⟨hook, some workspace, sourceUrns, none, none, 300000⟩ 0

/-- One hook fetches, and another one asks for the same. -/
def repeated : List (HookEvent String Nat) :=
  [visible 0 "sales" ["a"], .settles 0 0 (.ok (response false)) 10, visible 1 "sales" ["a"]]

theorem repeated_current : ∃ last : Hooks String Nat Unit,
    run (step 4) start repeated = some last ∧ last.hits.length = 1 ∧ last.Current := by
  have ended : (run (step 4) (start : Hooks String Nat Unit) repeated).map
      (fun last => last.hits.length) = some 1 := by decide +kernel
  obtain ⟨last, ran, hits⟩ := Option.map_eq_some_iff.mp ended
  refine ⟨last, ran, hits, run_orderly_current ?_ ?_ ran⟩
  · decide +kernel
  · decide +kernel

/-- The responses of two calls come in the reverse order. -/
def overtaken : List (HookEvent String Nat) :=
  [visible 0 "sales" ["a"], visible 0 "sales" ["b"], .settles 1 0 (.ok (response false)) 10,
    .settles 0 0 (.ok (response true)) 20]

/-- Another workspace, other urns with the same concatenation, and a fetch that failed. -/
def mistaken : List (List (HookEvent String Nat)) :=
  [[visible 0 "sales" ["a"], .settles 0 0 (.ok (response false)) 10, visible 1 "finance" ["a"]],
    [visible 0 "sales" ["ab", "c"], .settles 0 0 (.ok (response false)) 10,
      visible 0 "sales" ["a", "bc"]],
    [visible 0 "sales" ["a"], .settles 0 0 (.error none) 10, visible 0 "sales" ["a"]]]

theorem overtaken_answers :
    (run (step 4) (start : Hooks String Nat Unit) overtaken).map (fun last =>
      (last.fetches.all fun fetch => decide fetch.Done, last.latest 0,
        (last.result (.fetch 1)).map (·.truncated), (last.hooks 0).truncated)) =
      some (true, some (.fetch 1), some (some false), true) := by
  decide +kernel

/-- No fetch has asked for all the urns of the hit, with its provider and without a failure. -/
theorem mistaken_answers : ∀ events ∈ mistaken,
    (run (step 4) (start : Hooks String Nat Unit) events).map (fun last =>
      last.hits.any fun hit => last.fetches.all fun fetch =>
        fetch.request.provider ≠ hit.1.provider ∨ rejected fetch.settled ≠ [] ∨
          ¬ hit.1.sourceUrns ⊆ fetch.request.sourceUrns) = some true := by
  decide +kernel

theorem overtaken_not_current : ¬ ∃ events ∈ overtaken :: mistaken, ∀ last : Hooks String Nat Unit,
    run (step 4) start events = some last → last.Current := by
  intro ⟨events, member, always⟩
  rcases List.mem_cons.mp member with rfl | member
  · obtain ⟨last, ran, shape⟩ := Option.map_eq_some_iff.mp overtaken_answers
    simp only [Prod.mk.injEq, List.all_eq_true, decide_eq_true_eq] at shape
    obtain ⟨settled, latest, answered, shown⟩ := shape
    obtain ⟨result, found, truncated⟩ := Option.map_eq_some_iff.mp answered
    have visible := ((always last ran).latest 0 (fun fetch listed _ => settled fetch listed) _
      latest result found).truncated
    rw [shown, truncated] at visible
    cases visible
  · obtain ⟨last, ran, shape⟩ := Option.map_eq_some_iff.mp (mistaken_answers events member)
    obtain ⟨hit, listed, wrong⟩ := List.any_eq_true.mp shape
    obtain ⟨fetch, fetched, provides⟩ := (always last ran).shared hit listed
    have failed := of_decide_eq_true (List.all_eq_true.mp wrong fetch fetched)
    rcases failed with other | failure | missing
    · exact other provides.same.provider
    · exact failure provides.succeeded
    · exact missing provides.same.sources.2

end Hooks

end Univiz.AggregatedLineage
