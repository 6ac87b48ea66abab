import Univiz.Data.Transition
import Univiz.Providers.AncestorChains

namespace Univiz.Providers

open Univiz.Data

/-! When the cache of ancestor chains answers with the current chain or not at all. -/

theorem eq_of_append_cons {left left' right right' : List Char} {separator : Char}
    (absent : separator ∉ left) (absent' : separator ∉ left')
    (same : left ++ separator :: right = left' ++ separator :: right') :
    left = left' ∧ right = right' := by
  induction left generalizing left' with
  | nil =>
      cases left' with
      | nil => exact ⟨rfl, (List.cons.inj same).2⟩
      | cons char rest => exact absurd ((List.cons.inj same).1 ▸ List.mem_cons_self) absent'
  | cons char rest ih =>
      cases left' with
      | nil => exact absurd ((List.cons.inj same).1.symm ▸ List.mem_cons_self) absent
      | cons char' rest' =>
          obtain ⟨rfl, later⟩ := List.cons.inj same
          obtain ⟨rfl, tail⟩ := ih (fun member => absent (List.mem_cons_of_mem _ member))
            (fun member => absent' (List.mem_cons_of_mem _ member)) later
          exact ⟨rfl, tail⟩

namespace AncestorChainCache

variable {codec : ChainCodec} {cache : AncestorChainCache} {urn other : String}
  {fingerprint key : Fingerprint} {chain : Chain} {reply : RedisReply}

/-- No answer to a read, whether or not Redis replies, has a chain other than the current
one. -/
structure Fresh (codec : ChainCodec) (cache : AncestorChainCache) : Prop where
  get : ∀ urn fingerprint failed, ∀ chain ∈ (cache.get codec urn fingerprint failed).1,
    cache.current fingerprint urn = some chain
  mget : ∀ urns fingerprint failed urn,
    ∀ chain ∈ (cache.mget codec urns fingerprint failed).1.get urn,
      cache.current fingerprint urn = some chain

/-- Redis goes on after a failing call. -/
def StaysAlive (cache : AncestorChainCache) : Prop :=
  cache.redisClient = true ∧ cache.redisFailures + 1 < redisFailureThreshold

/-- A write that fails without effect, and is not the one that disables Redis, leaves nothing
in Redis but what it would have written. -/
def Superseded (codec : ChainCodec) (cache : AncestorChainCache) : CacheCall → Prop
  | .set urn chain fingerprint (.failed false) => cache.StaysAlive →
      ∀ raw ∈ (cache.hash fingerprint).get urn, codec.decode raw = chain
  | .mset mapping fingerprint (.failed false) => cache.StaysAlive →
      ∀ urn, ∀ chain ∈ mapping.get urn, ∀ raw ∈ (cache.hash fingerprint).get urn,
        codec.decode raw = chain
  | .invalidate urn fingerprint (.failed false) => cache.StaysAlive →
      (cache.hash fingerprint).get urn = none
  | .invalidateFingerprint fingerprint (.failed false) => cache.StaysAlive →
      ∀ urn, (cache.hash fingerprint).get urn = none
  | _ => True

theorem toList_memoryKey : (cache.memoryKey fingerprint urn).toList =
    (cache.keyspace ++ ":ancestors:").toList ++ (fingerprint.text.toList ++ ':' :: urn.toList) := by
  simp [memoryKey, memoryPrefix, hashKey]

theorem fingerprint_ext {one other : Fingerprint} (same : one.text.toList = other.text.toList) :
    one = other := by
  cases one
  cases other
  cases String.toList_inj.mp same
  rfl

theorem memoryKey_inj : cache.memoryKey fingerprint urn = cache.memoryKey key other ↔
    fingerprint = key ∧ urn = other := by
  refine ⟨?_, ?_⟩
  · intro same
    have chars := congrArg String.toList same
    rw [toList_memoryKey, toList_memoryKey] at chars
    obtain ⟨text, tail⟩ := eq_of_append_cons fingerprint.digest key.digest
      (List.append_cancel_left chars)
    exact ⟨fingerprint_ext text, String.toList_inj.mp tail⟩
  · rintro ⟨rfl, rfl⟩
    rfl

theorem hashKey_inj : cache.hashKey fingerprint = cache.hashKey key ↔ fingerprint = key := by
  refine ⟨?_, ?_⟩
  · intro same
    have chars := congrArg String.toList same
    simp only [hashKey, String.toList_append] at chars
    exact fingerprint_ext (List.append_cancel_left chars)
  · rintro rfl
    rfl

/-- The keys that start as those of a fingerprint are those of the fingerprint. -/
theorem memoryPrefix_isPrefixOf :
    (cache.memoryPrefix fingerprint).toList.isPrefixOf (cache.memoryKey key urn).toList = true ↔
      key = fingerprint := by
  rw [List.isPrefixOf_iff_prefix, toList_memoryKey]
  have start : (cache.memoryPrefix fingerprint).toList =
      (cache.keyspace ++ ":ancestors:").toList ++ (fingerprint.text.toList ++ [':']) := by
    simp [memoryPrefix, hashKey]
  rw [start, List.prefix_append_right_inj]
  refine ⟨?_, ?_⟩
  · intro ⟨tail, same⟩
    rw [List.append_assoc, List.singleton_append] at same
    exact fingerprint_ext (eq_of_append_cons fingerprint.digest key.digest same).1.symm
  · rintro rfl
    exact ⟨urn.toList, by simp⟩

/-- What the layers have is current, as far as it can be read. -/
structure Coherent (codec : ChainCodec) (cache : AncestorChainCache) : Prop where
  memory : ∀ fingerprint urn, ∀ chain ∈ cache.memory.get (cache.memoryKey fingerprint urn),
    cache.current fingerprint urn = some chain
  redis : cache.redisAlive = true → ∀ fingerprint urn, ∀ raw ∈ (cache.hash fingerprint).get urn,
    cache.current fingerprint urn = some (codec.decode raw)

/-- The chain in the memory, wherever the reads end up with it. -/
theorem get_fallback (cache : AncestorChainCache) (urn : String) (fingerprint : Fingerprint) :
    (cache.get codec urn fingerprint true).1 =
      cache.memory.get (cache.memoryKey fingerprint urn) := by
  simp only [get]
  split
  · rfl
  · rfl

theorem get_redis (alive : cache.redisAlive = true) {raw : String}
    (found : (cache.hash fingerprint).get urn = some raw) :
    (cache.get codec urn fingerprint false).1 = some (codec.decode raw) := by
  simp [get, alive, found]

theorem get_fallbacks {urns : List String} {out : OrderedMap String Chain}
    (hit : (cache.fallbacks fingerprint urns out).get urn = some chain) :
    out.get urn = some chain ∨
      cache.memory.get (cache.memoryKey fingerprint urn) = some chain := by
  induction urns generalizing out with
  | nil => exact .inl hit
  | cons first rest ih =>
      rcases ih hit with earlier | found
      · cases present : cache.memory.get (cache.memoryKey fingerprint first) with
        | none =>
            simp only [present] at earlier
            exact .inl earlier
        | some remembered =>
            simp only [present, OrderedMap.get_set] at earlier
            split at earlier
            · rename_i same
              subst same
              cases earlier
              exact .inr present
            · exact .inl earlier
      · exact .inr found

/-- What a batch has read from Redis is in the output and in the memory. -/
theorem get_foldl_hits {hits : List (String × Chain)} {out : OrderedMap String Chain}
    (hit : (hits.foldl (fun out hit => out.set hit.1 hit.2) out).get urn = some chain) :
    (urn, chain) ∈ hits ∨ out.get urn = some chain := by
  induction hits generalizing out with
  | nil => exact .inr hit
  | cons first rest ih =>
      rcases ih hit with later | earlier
      · exact .inl (List.mem_cons_of_mem _ later)
      · rw [OrderedMap.get_set] at earlier
        split at earlier
        · rename_i same
          subst same
          cases earlier
          exact .inl List.mem_cons_self
        · exact .inr earlier

theorem remember_coherent (coherent : cache.Coherent codec)
    (current : cache.current fingerprint urn = some chain) :
    (cache.remember fingerprint urn chain).Coherent codec := by
  refine ⟨?_, coherent.redis⟩
  intro key other chain' found
  have looked : (cache.memory.set (cache.memoryKey fingerprint urn) chain).get
      (cache.memoryKey key other) = some chain' := found
  rw [OrderedMap.get_set] at looked
  split at looked
  · rename_i same
    obtain ⟨rfl, rfl⟩ := memoryKey_inj.mp same
    cases looked
    exact current
  · exact coherent.memory key other chain' looked

theorem foldl_remember_coherent {hits : List (String × Chain)} (coherent : cache.Coherent codec)
    (current : ∀ hit ∈ hits, cache.current fingerprint hit.1 = some hit.2) :
    (hits.foldl (fun cache hit => cache.remember fingerprint hit.1 hit.2) cache).Coherent codec ∧
      (hits.foldl (fun cache hit => cache.remember fingerprint hit.1 hit.2) cache).current =
        cache.current := by
  induction hits generalizing cache with
  | nil => exact ⟨coherent, rfl⟩
  | cons hit rest ih =>
      obtain ⟨first, later⟩ := List.forall_mem_cons.mp current
      exact ih (remember_coherent coherent first) later

theorem noteRedisOk_coherent (coherent : cache.Coherent codec) (alive : cache.redisAlive = true) :
    cache.noteRedisOk.Coherent codec :=
  ⟨coherent.memory, fun _ => coherent.redis alive⟩

theorem alive_of_staysAlive (alive : cache.StaysAlive) : cache.redisAlive = true := by
  obtain ⟨client, few⟩ := alive
  simp only [redisAlive, client, Bool.true_and, decide_eq_true_eq]
  omega

theorem staysAlive_iff : cache.noteRedisFail.redisAlive = true ↔ cache.StaysAlive := by
  unfold redisAlive noteRedisFail StaysAlive
  rw [Bool.and_eq_true]
  exact and_congr_right fun _ => decide_eq_true_iff

theorem noteRedisFail_coherent (coherent : cache.Coherent codec) :
    cache.noteRedisFail.Coherent codec :=
  ⟨coherent.memory, fun alive =>
    coherent.redis (alive_of_staysAlive (staysAlive_iff.mp alive))⟩

theorem get_coherent (coherent : cache.Coherent codec) {failed : Bool} :
    (cache.get codec urn fingerprint failed).2.Coherent codec ∧
      ∀ chain ∈ (cache.get codec urn fingerprint failed).1,
        cache.current fingerprint urn = some chain := by
  have remembered := coherent.memory fingerprint urn
  simp only [get]
  split
  · exact ⟨coherent, remembered⟩
  · rename_i alive
    split
    · exact ⟨noteRedisFail_coherent coherent, remembered⟩
    · split
      · exact ⟨coherent, remembered⟩
      · rename_i raw found
        have alive : cache.redisAlive = true := Bool.not_eq_false _ ▸ alive
        have current := coherent.redis alive fingerprint urn raw found
        refine ⟨noteRedisOk_coherent (remember_coherent coherent current) alive, ?_⟩
        rintro chain ⟨⟩
        exact current

theorem mget_coherent (coherent : cache.Coherent codec) {urns : List String} {failed : Bool} :
    (cache.mget codec urns fingerprint failed).2.Coherent codec ∧
      ∀ urn, ∀ chain ∈ (cache.mget codec urns fingerprint failed).1.get urn,
        cache.current fingerprint urn = some chain := by
  have remembered (urns : List String) (urn : String) (chain : Chain)
      (hit : (cache.fallbacks fingerprint urns .empty).get urn = some chain) :
      cache.current fingerprint urn = some chain :=
    coherent.memory fingerprint urn chain ((get_fallbacks hit).resolve_left (Option.some_ne_none _).symm)
  simp only [mget]
  split
  · exact ⟨coherent, fun _ _ hit => by cases hit⟩
  · split
    · exact ⟨coherent, remembered urns⟩
    · rename_i alive
      split
      · exact ⟨noteRedisFail_coherent coherent, remembered urns⟩
      · have alive : cache.redisAlive = true := Bool.not_eq_false _ ▸ alive
        dsimp only
        generalize taken : (urns.filterMap fun urn => ((cache.hash fingerprint).get urn).map
          fun raw => (urn, codec.decode raw)) = hits
        have current : ∀ hit ∈ hits, cache.current fingerprint hit.1 = some hit.2 := by
          intro hit member
          rw [← taken] at member
          obtain ⟨urn, -, read⟩ := List.mem_filterMap.mp member
          obtain ⟨raw, found, rfl⟩ := Option.map_eq_some_iff.mp read
          exact coherent.redis alive fingerprint urn raw found
        obtain ⟨warmed, same⟩ :=
          foldl_remember_coherent (noteRedisOk_coherent coherent alive) current
        refine ⟨warmed, ?_⟩
        intro urn chain hit
        rcases get_fallbacks hit with out | memory
        · have member := (get_foldl_hits out).resolve_right (Option.some_ne_none _).symm
          exact current (urn, chain) member
        · have answer := warmed.memory fingerprint urn chain memory
          rw [same] at answer
          exact answer

theorem fresh_iff : cache.Fresh codec ↔ cache.Coherent codec := by
  refine ⟨?_, ?_⟩
  · intro fresh
    refine ⟨?_, ?_⟩
    · intro fingerprint urn chain found
      exact fresh.get urn fingerprint true chain ((get_fallback cache urn fingerprint).trans found)
    · intro alive fingerprint urn raw found
      exact fresh.get urn fingerprint false _ (get_redis alive found)
  · intro coherent
    refine ⟨?_, ?_⟩
    · intro urn fingerprint failed chain answer
      exact (get_coherent coherent).2 chain answer
    · intro urns fingerprint failed urn chain answer
      exact (mget_coherent coherent).2 urn chain answer

variable {effect : OrderedMap String String → OrderedMap String String}

theorem hash_changeHash : (cache.changeHash fingerprint effect).hash key =
    if key = fingerprint then effect (cache.hash fingerprint) else cache.hash key := by
  have names : cache.hashKey key = cache.hashKey fingerprint ↔ key = fingerprint := hashKey_inj
  exact if_congr names rfl rfl

/-- What a write does to the urns of a fingerprint.  An urn that it does not concern has no
update. -/
structure Writes (codec : ChainCodec) (cache : AncestorChainCache) (fingerprint : Fingerprint)
    (update : String → Option (Option Chain)) (memory : OrderedMap String Chain)
    (effect : OrderedMap String String → OrderedMap String String) : Prop where
  memory : ∀ key urn, ∀ chain ∈ memory.get (cache.memoryKey key urn),
    key = fingerprint ∧ update urn = some (some chain) ∨
      (key = fingerprint → update urn = none) ∧
        chain ∈ cache.memory.get (cache.memoryKey key urn)
  hash : ∀ urn, ∀ raw ∈ (effect (cache.hash fingerprint)).get urn,
    update urn = some (some (codec.decode raw)) ∨
      update urn = none ∧ raw ∈ (cache.hash fingerprint).get urn

/-- The cache between the two halves of a write. -/
def between (cache : AncestorChainCache) (fingerprint : Fingerprint)
    (update : String → Option (Option Chain)) (memory : OrderedMap String Chain) :
    AncestorChainCache :=
  { cache.track fingerprint update with memory }

variable {update : String → Option (Option Chain)} {memory : OrderedMap String Chain}

theorem current_updated {target : Option Chain} (updated : update urn = some target) :
    (cache.between fingerprint update memory).current fingerprint urn = target := by
  simp [between, track, updated]

theorem current_kept (kept : key = fingerprint → update urn = none) :
    (cache.between fingerprint update memory).current key urn = cache.current key urn := by
  simp only [between, track]
  split
  · rename_i same
    rw [kept same]
    rfl
  · rfl

theorem Writes.memory_current (writes : Writes codec cache fingerprint update memory effect)
    (coherent : cache.Coherent codec) :
    ∀ key urn, ∀ chain ∈ memory.get (cache.memoryKey key urn),
      (cache.between fingerprint update memory).current key urn = some chain := by
  intro key urn chain found
  rcases writes.memory key urn chain found with ⟨rfl, updated⟩ | ⟨kept, old⟩
  · exact current_updated updated
  · rw [current_kept kept]
    exact coherent.memory key urn chain old

/-- A write with both halves. -/
theorem Writes.changed_coherent (writes : Writes codec cache fingerprint update memory effect)
    (coherent : cache.Coherent codec) (alive : cache.redisAlive = true) :
    ((cache.between fingerprint update memory).changeHash fingerprint effect).Coherent codec := by
  refine ⟨writes.memory_current coherent, ?_⟩
  intro _ key urn raw found
  change (cache.between fingerprint update memory).current key urn = _
  rw [hash_changeHash] at found
  split at found
  · rename_i same
    subst same
    rcases writes.hash urn raw found with updated | ⟨kept, old⟩
    · exact current_updated updated
    · rw [current_kept fun _ => kept]
      exact coherent.redis alive key urn raw old
  · rename_i apart
    rw [current_kept fun same => absurd same apart]
    exact coherent.redis alive key urn raw found

/-- A write keeps the layers current unless its Redis half leaves something old behind. -/
theorem Writes.coherent_iff (writes : Writes codec cache fingerprint update memory effect)
    (coherent : cache.Coherent codec) (reply : RedisReply) :
    ((cache.between fingerprint update memory).writeRedis fingerprint effect reply).Coherent
        codec ↔
      (reply = .failed false → cache.StaysAlive → ∀ urn target, update urn = some target →
        ∀ raw ∈ (cache.hash fingerprint).get urn, target = some (codec.decode raw)) := by
  have remembered := writes.memory_current coherent
  simp only [writeRedis]
  split
  · rename_i dead
    have dead : cache.redisAlive = false := dead
    refine ⟨?_, ?_⟩
    · intro _ _ alive
      exact absurd (alive_of_staysAlive alive) (by rw [dead]; exact Bool.false_ne_true)
    · intro _
      refine ⟨remembered, ?_⟩
      intro alive
      exact absurd (dead.symm.trans alive) Bool.false_ne_true
  · rename_i alive
    have alive : cache.redisAlive = true := Bool.not_eq_false _ ▸ alive
    have changed := writes.changed_coherent coherent alive
    cases reply with
    | ok => exact iff_of_true (noteRedisOk_coherent changed alive) fun lost => by cases lost
    | failed applied =>
        cases applied with
        | true => exact iff_of_true (noteRedisFail_coherent changed) fun lost => by cases lost
        | false =>
            simp only [forall_const]
            refine ⟨?_, ?_⟩
            · intro later stays urn target updated raw found
              have alive := staysAlive_iff.mpr stays
              have current : (cache.between fingerprint update memory).current fingerprint urn =
                  some (codec.decode raw) := later.redis alive fingerprint urn raw found
              exact (current_updated updated).symm.trans current
            · intro left
              refine ⟨remembered, ?_⟩
              intro again key urn raw found
              have stays : cache.StaysAlive := staysAlive_iff.mp again
              have old := coherent.redis alive key urn raw found
              change (cache.between fingerprint update memory).current key urn = _
              by_cases here : key = fingerprint
              · subst here
                cases updated : update urn with
                | none =>
                    rw [current_kept fun _ => updated]
                    exact old
                | some target =>
                    rw [current_updated updated]
                    exact left stays urn target updated raw found
              · rw [current_kept fun same => absurd same here]
                exact old

/-- Only a Redis half that fails without effect has a condition. -/
theorem effectless_iff {left : Prop} (reply : RedisReply) (superseded : RedisReply → Prop)
    (others : superseded .ok ∧ superseded (.failed true))
    (exact : left ↔ superseded (.failed false)) :
    (reply = .failed false → left) ↔ superseded reply := by
  cases reply with
  | ok => exact iff_of_true nofun others.1
  | failed applied =>
      cases applied with
      | true => exact iff_of_true nofun others.2
      | false => exact (forall_prop_of_true rfl).trans exact

theorem set_coherent (coherent : cache.Coherent codec) :
    (cache.set codec urn chain fingerprint reply).Coherent codec ↔
      cache.Superseded codec (.set urn chain fingerprint reply) := by
  have writes : Writes codec cache fingerprint
      (fun other => if other = urn then some (some chain) else none)
      (cache.memory.set (cache.memoryKey fingerprint urn) chain)
      (fun hash => hash.set urn (codec.encode chain)) := by
    refine ⟨?_, ?_⟩
    · intro key other chain' found
      rw [Option.mem_def, OrderedMap.get_set] at found
      split at found
      · rename_i same
        obtain ⟨rfl, rfl⟩ := memoryKey_inj.mp same
        exact .inl ⟨rfl, by rw [if_pos rfl, found]⟩
      · rename_i apart
        refine .inr ⟨?_, found⟩
        rintro rfl
        refine if_neg ?_
        rintro rfl
        exact apart rfl
    · intro other raw found
      rw [Option.mem_def, OrderedMap.get_set] at found
      split at found
      · rename_i same
        cases found
        exact .inl (by rw [if_pos same.symm, codec.decode_encode])
      · rename_i apart
        exact .inr ⟨if_neg (Ne.symm apart), found⟩
  refine (writes.coherent_iff coherent reply).trans (effectless_iff reply
    (fun reply => cache.Superseded codec (.set urn chain fingerprint reply)) ⟨trivial, trivial⟩ ?_)
  refine forall_congr' fun _ => ⟨?_, ?_⟩
  · intro left raw found
    exact (Option.some.inj (left urn (some chain) (if_pos rfl) raw found)).symm
  · intro same other target updated raw found
    split at updated
    · rename_i here
      cases updated
      rw [same raw (here ▸ found)]
    · cases updated

theorem invalidate_coherent (coherent : cache.Coherent codec) :
    (cache.invalidate urn fingerprint reply).Coherent codec ↔
      cache.Superseded codec (.invalidate urn fingerprint reply) := by
  have writes : Writes codec cache fingerprint
      (fun other => if other = urn then some none else none)
      (cache.memory.erase (cache.memoryKey fingerprint urn)) (fun hash => hash.erase urn) := by
    refine ⟨?_, ?_⟩
    · intro key other chain found
      rw [Option.mem_def, OrderedMap.get_erase] at found
      split at found
      · cases found
      · rename_i apart
        refine .inr ⟨?_, found⟩
        rintro rfl
        refine if_neg ?_
        rintro rfl
        exact apart rfl
    · intro other raw found
      rw [Option.mem_def, OrderedMap.get_erase] at found
      split at found
      · cases found
      · rename_i apart
        exact .inr ⟨if_neg (Ne.symm apart), found⟩
  refine (writes.coherent_iff coherent reply).trans (effectless_iff reply
    (fun reply => cache.Superseded codec (.invalidate urn fingerprint reply)) ⟨trivial, trivial⟩ ?_)
  refine forall_congr' fun _ => ⟨?_, ?_⟩
  · intro left
    rw [Option.eq_none_iff_forall_not_mem]
    intro raw found
    cases left urn none (if_pos rfl) raw found
  · intro gone other target updated raw found
    split at updated
    · rename_i here
      subst here
      cases gone.symm.trans found
    · cases updated

theorem invalidateFingerprint_coherent (coherent : cache.Coherent codec) :
    (cache.invalidateFingerprint fingerprint reply).Coherent codec ↔
      cache.Superseded codec (.invalidateFingerprint fingerprint reply) := by
  have writes : Writes codec cache fingerprint (fun _ => some none)
      (cache.memory.restrict fun key =>
        ! (cache.memoryPrefix fingerprint).toList.isPrefixOf key.toList) (fun _ => .empty) := by
    refine ⟨?_, nofun⟩
    intro key other chain found
    rw [Option.mem_def, OrderedMap.get_restrict] at found
    split at found
    · rename_i outside
      refine .inr ⟨?_, found⟩
      intro same
      rw [memoryPrefix_isPrefixOf.mpr same] at outside
      cases outside
    · cases found
  refine (writes.coherent_iff coherent reply).trans (effectless_iff reply
    (fun reply => cache.Superseded codec (.invalidateFingerprint fingerprint reply))
    ⟨trivial, trivial⟩ ?_)
  refine forall_congr' fun _ => ⟨?_, ?_⟩
  · intro left urn
    rw [Option.eq_none_iff_forall_not_mem]
    intro raw found
    cases left urn none rfl raw found
  · intro gone urn target _ raw found
    cases (gone urn).symm.trans found

theorem foldl_remember (entries : List (String × Chain)) :
    entries.foldl (fun cache entry => cache.remember fingerprint entry.1 entry.2) cache =
      { cache with memory := entries.foldl (fun memory entry =>
          memory.set (cache.memoryKey fingerprint entry.1) entry.2) cache.memory } := by
  induction entries generalizing cache with
  | nil => rfl
  | cons entry rest ih =>
      rw [List.foldl_cons, ih]
      rfl

theorem get_foldl_memory {entries : List (String × Chain)} {memory : OrderedMap String Chain}
    (distinct : (entries.map Prod.fst).Nodup)
    (found : (entries.foldl (fun memory entry =>
      memory.set (cache.memoryKey fingerprint entry.1) entry.2) memory).get
        (cache.memoryKey key urn) = some chain) :
    key = fingerprint ∧ OrderedMap.lookup entries urn = some chain ∨
      (key = fingerprint → OrderedMap.lookup entries urn = none) ∧
        memory.get (cache.memoryKey key urn) = some chain := by
  induction entries generalizing memory with
  | nil => exact .inr ⟨fun _ => rfl, found⟩
  | cons entry rest ih =>
      obtain ⟨first, former⟩ := entry
      obtain ⟨fresh, distinct⟩ := List.nodup_cons.mp distinct
      rcases ih distinct found with ⟨same, later⟩ | ⟨absent, earlier⟩
      · refine .inl ⟨same, ?_⟩
        have apart : first ≠ urn := by
          rintro rfl
          have member := (OrderedMap.lookup_eq_some distinct).mp later
          exact fresh (List.mem_map.mpr ⟨_, member, rfl⟩)
        rw [OrderedMap.lookup, if_neg apart, later]
      · rw [OrderedMap.get_set] at earlier
        split at earlier
        · rename_i same
          obtain ⟨rfl, rfl⟩ := memoryKey_inj.mp same
          cases earlier
          exact .inl ⟨rfl, if_pos rfl⟩
        · rename_i apart
          refine .inr ⟨?_, earlier⟩
          rintro rfl
          have other : first ≠ urn := by
            rintro rfl
            exact apart rfl
          rw [OrderedMap.lookup, if_neg other, absent rfl]

theorem mset_coherent (coherent : cache.Coherent codec) {mapping : OrderedMap String Chain} :
    (cache.mset codec mapping fingerprint reply).Coherent codec ↔
      cache.Superseded codec (.mset mapping fingerprint reply) := by
  have writes : Writes codec cache fingerprint (fun urn => (mapping.get urn).map some)
      (mapping.entries.foldl (fun memory entry =>
        memory.set (cache.memoryKey fingerprint entry.1) entry.2) cache.memory)
      (fun hash => mapping.entries.foldl
        (fun hash entry => hash.set entry.1 (codec.encode entry.2)) hash) := by
    refine ⟨?_, ?_⟩
    · intro key urn chain found
      rcases get_foldl_memory mapping.distinct found with ⟨same, listed⟩ | ⟨absent, old⟩
      · exact .inl ⟨same, congrArg (Option.map some) listed⟩
      · exact .inr ⟨fun same => congrArg (Option.map some) (absent same), old⟩
    · intro urn raw found
      rw [Option.mem_def, OrderedMap.get_foldl_entries mapping.distinct] at found
      change ((mapping.get urn).map codec.encode).or _ = some raw at found
      cases listed : mapping.get urn with
      | none =>
          rw [listed] at found
          exact .inr ⟨rfl, found⟩
      | some chain =>
          rw [listed] at found
          cases found
          exact .inl (by rw [codec.decode_encode]; rfl)
  have condition : (reply = .failed false → cache.StaysAlive → ∀ urn target,
      (mapping.get urn).map some = some target → ∀ raw ∈ (cache.hash fingerprint).get urn,
        target = some (codec.decode raw)) ↔
      cache.Superseded codec (.mset mapping fingerprint reply) := by
    refine effectless_iff reply
      (fun reply => cache.Superseded codec (.mset mapping fingerprint reply)) ⟨trivial, trivial⟩ ?_
    refine forall_congr' fun _ => forall_congr' fun urn => ⟨?_, ?_⟩
    · intro left chain listed raw found
      have target : (mapping.get urn).map some = some (some chain) :=
        congrArg (Option.map some) listed
      exact (Option.some.inj (left (some chain) target raw found)).symm
    · intro same target listed raw found
      obtain ⟨chain, member, rfl⟩ := Option.map_eq_some_iff.mp listed
      rw [same chain member raw found]
  rw [← condition]
  unfold mset
  split
  · rename_i empty
    refine iff_of_true coherent ?_
    intro _ _ urn target listed
    rw [OrderedMap.get, empty] at listed
    cases listed
  · dsimp only
    rw [foldl_remember]
    exact writes.coherent_iff coherent reply

theorem step_coherent_iff (coherent : cache.Coherent codec) (call : CacheCall) :
    (∀ next, cache.step codec call = some next → next.Coherent codec) ↔
      cache.Superseded codec call := by
  have total {next : AncestorChainCache} {condition : Prop}
      (exact : next.Coherent codec ↔ condition) :
      (∀ later, some next = some later → later.Coherent codec) ↔ condition := by
    rw [← exact]
    exact ⟨fun kept => kept next rfl, fun kept later same => Option.some.inj same ▸ kept⟩
  cases call with
  | get urn fingerprint failed => exact total (iff_true_intro (get_coherent coherent).1)
  | mget urns fingerprint failed =>
      exact total (iff_true_intro (mget_coherent coherent).1)
  | set urn chain fingerprint reply => exact total (set_coherent coherent)
  | mset mapping fingerprint reply => exact total (mset_coherent coherent)
  | invalidate urn fingerprint reply => exact total (invalidate_coherent coherent)
  | invalidateFingerprint fingerprint reply =>
      exact total (invalidateFingerprint_coherent coherent)

theorem start_coherent (keyspace : String) (redisClient : Bool)
    (redis : String → OrderedMap String String) :
    (start codec keyspace redisClient redis).Coherent codec := by
  refine ⟨nofun, ?_⟩
  intro _ fingerprint urn raw found
  exact congrArg (Option.map codec.decode) found

/-- The answers are current throughout a run exactly if every write that fails without effect
is superseded. -/
theorem always_fresh_iff (codec : ChainCodec) (keyspace : String) (redisClient : Bool)
    (redis : String → OrderedMap String String) (calls : List CacheCall) :
    Always (step codec) (Fresh codec) (start codec keyspace redisClient redis) calls ↔
      Meets (step codec) (Superseded codec) (start codec keyspace redisClient redis) calls := by
  refine always_iff_meets (fun _ => True) (fun _ _ _ _ _ => trivial) ?_ trivial
    (fresh_iff.mpr (start_coherent keyspace redisClient redis))
  intro cache call _ fresh
  rw [← step_coherent_iff (fresh_iff.mp fresh) call]
  exact forall_congr' fun next => forall_congr' fun _ => fresh_iff

end AncestorChainCache

/-- A text for each chain. -/
def escape (chain : Chain) : List Char :=
  chain.flatMap fun urn => (urn.toList.flatMap fun char => ['.', char]) ++ [',']

def unescape (word : List Char) : List Char → Chain
  | '.' :: char :: rest => unescape (word ++ [char]) rest
  | ',' :: rest => String.ofList word :: unescape [] rest
  | _ => []

theorem unescape_word (word chars rest : List Char) :
    unescape word ((chars.flatMap fun char => ['.', char]) ++ rest) =
      unescape (word ++ chars) rest := by
  induction chars generalizing word with
  | nil => simp
  | cons char chars ih =>
      have first : unescape word (((char :: chars).flatMap fun char => ['.', char]) ++ rest) =
          unescape (word ++ [char]) ((chars.flatMap fun char => ['.', char]) ++ rest) := rfl
      rw [first, ih, List.append_assoc, List.singleton_append]

theorem unescape_escape (chain : Chain) : unescape [] (escape chain) = chain := by
  induction chain with
  | nil => rfl
  | cons urn rest ih =>
      have split : escape (urn :: rest) = (urn.toList.flatMap fun char => ['.', char]) ++
          ',' :: escape rest := by
        simp [escape]
      rw [split, unescape_word]
      change String.ofList ([] ++ urn.toList) :: unescape [] (escape rest) = _
      rw [ih, List.nil_append, String.ofList_toList]

def escaped : ChainCodec where
  encode chain := String.ofList (escape chain)
  decode raw := unescape [] raw.toList
  decode_encode chain := by rw [String.toList_ofList, unescape_escape]

namespace AncestorChainCache

def containment : Fingerprint := ⟨"default", by decide⟩

/-- The second chain of an urn does not get to Redis, and an invalidation neither. -/
def staleWrites : List CacheCall :=
  [.set "orders" ["raw"] containment .ok, .set "orders" ["finance"] containment (.failed false)]

def staleInvalidation : List CacheCall :=
  [.set "orders" ["raw"] containment .ok, .invalidate "orders" containment (.failed false)]

theorem stale_answers :
    (run (step escaped) (start escaped "graph" true fun _ => .empty) staleWrites).map (fun last =>
      ((last.get escaped "orders" containment false).1, last.current containment "orders")) =
        some (some ["raw"], some ["finance"]) ∧
    (run (step escaped) (start escaped "graph" true fun _ => .empty) staleInvalidation).map
      (fun last =>
        ((last.get escaped "orders" containment false).1, last.current containment "orders")) =
          some (some ["raw"], none) := by
  decide +kernel

theorem not_fresh : ¬ ∃ calls ∈ [staleWrites, staleInvalidation], ∀ last,
    run (step escaped) (start escaped "graph" true fun _ => .empty) calls = some last →
      last.Fresh escaped := by
  intro ⟨calls, member, always⟩
  simp only [List.mem_cons, List.not_mem_nil, or_false] at member
  rcases member with rfl | rfl
  · obtain ⟨last, ran, shape⟩ := Option.map_eq_some_iff.mp stale_answers.1
    simp only [Prod.mk.injEq] at shape
    have current := (always last ran).get "orders" containment false _ shape.1
    rw [shape.2] at current
    exact absurd current (by decide)
  · obtain ⟨last, ran, shape⟩ := Option.map_eq_some_iff.mp stale_answers.2
    simp only [Prod.mk.injEq] at shape
    have current := (always last ran).get "orders" containment false _ shape.1
    rw [shape.2] at current
    cases current

end AncestorChainCache

end Univiz.Providers
