import Univiz.Data.OrderedMap

namespace Univiz.Providers

open Univiz.Data

/-! The cache of ancestor chains, with a memory and a Redis layer. -/

abbrev Chain := List String

/-- A digest of containment edge types. -/
structure Fingerprint where
  text : String
  digest : ':' ∉ text.toList
  deriving DecidableEq

/-- `_encode` and `_decode`. -/
structure ChainCodec where
  encode : Chain → String
  decode : String → Chain
  decode_encode : ∀ chain, decode (encode chain) = chain

/-- How a Redis call of a write ends.  A call that raises may have taken effect. -/
inductive RedisReply where
  | ok
  | failed (effect : Bool)
  deriving DecidableEq

/-- The cache and the Redis server.  `current` is the chain that was set last, unless it has
been invalidated since. -/
structure AncestorChainCache where
  keyspace : String
  redisClient : Bool
  redisFailures : Nat
  memory : OrderedMap String Chain
  redis : String → OrderedMap String String
  current : Fingerprint → String → Option Chain

inductive CacheCall where
  | get (urn : String) (fingerprint : Fingerprint) (failed : Bool)
  | mget (urns : List String) (fingerprint : Fingerprint) (failed : Bool)
  | set (urn : String) (chain : Chain) (fingerprint : Fingerprint) (reply : RedisReply)
  | mset (mapping : OrderedMap String Chain) (fingerprint : Fingerprint) (reply : RedisReply)
  | invalidate (urn : String) (fingerprint : Fingerprint) (reply : RedisReply)
  | invalidateFingerprint (fingerprint : Fingerprint) (reply : RedisReply)

namespace AncestorChainCache

variable (codec : ChainCodec) (cache : AncestorChainCache)

def redisFailureThreshold : Nat := 5

def hashKey (fingerprint : Fingerprint) : String :=
  cache.keyspace ++ ":ancestors:" ++ fingerprint.text

def memoryPrefix (fingerprint : Fingerprint) : String := cache.hashKey fingerprint ++ ":"

def memoryKey (fingerprint : Fingerprint) (urn : String) : String :=
  cache.memoryPrefix fingerprint ++ urn

def redisAlive : Bool := cache.redisClient && cache.redisFailures < redisFailureThreshold

def noteRedisOk : AncestorChainCache := { cache with redisFailures := 0 }

def noteRedisFail : AncestorChainCache := { cache with redisFailures := cache.redisFailures + 1 }

def hash (fingerprint : Fingerprint) : OrderedMap String String :=
  cache.redis (cache.hashKey fingerprint)

def remember (fingerprint : Fingerprint) (urn : String) (chain : Chain) : AncestorChainCache :=
  { cache with memory := cache.memory.set (cache.memoryKey fingerprint urn) chain }

def get (urn : String) (fingerprint : Fingerprint) (failed : Bool) :
    Option Chain × AncestorChainCache :=
  let fallback := cache.memory.get (cache.memoryKey fingerprint urn)
  if cache.redisAlive = false then (fallback, cache)
  else if failed = true then (fallback, cache.noteRedisFail)
  else match (cache.hash fingerprint).get urn with
    | none => (fallback, cache)
    | some raw =>
        let chain := codec.decode raw
        (some chain, (cache.remember fingerprint urn chain).noteRedisOk)

/-- The entries of the memory for what Redis does not have. -/
def fallbacks (fingerprint : Fingerprint) (urns : List String) (out : OrderedMap String Chain) :
    OrderedMap String Chain :=
  urns.foldl (fun out urn => match cache.memory.get (cache.memoryKey fingerprint urn) with
    | some chain => out.set urn chain
    | none => out) out

def mget (urns : List String) (fingerprint : Fingerprint) (failed : Bool) :
    OrderedMap String Chain × AncestorChainCache :=
  if urns = [] then (.empty, cache)
  else if cache.redisAlive = false then (cache.fallbacks fingerprint urns .empty, cache)
  else if failed = true then (cache.fallbacks fingerprint urns .empty, cache.noteRedisFail)
  else
    let hits := urns.filterMap fun urn =>
      ((cache.hash fingerprint).get urn).map fun raw => (urn, codec.decode raw)
    let missing := urns.filter fun urn => ((cache.hash fingerprint).get urn).isNone
    let out : OrderedMap String Chain := hits.foldl (fun out hit => out.set hit.1 hit.2) .empty
    let warmed := hits.foldl (fun cache hit => cache.remember fingerprint hit.1 hit.2)
      cache.noteRedisOk
    (warmed.fallbacks fingerprint missing out, warmed)

/-- A command on one hash. -/
def changeHash (fingerprint : Fingerprint)
    (effect : OrderedMap String String → OrderedMap String String) : AncestorChainCache :=
  let name := cache.hashKey fingerprint
  { cache with redis := fun other => if other = name then effect (cache.redis name)
      else cache.redis other }

/-- The Redis half of a write. -/
def writeRedis (fingerprint : Fingerprint)
    (effect : OrderedMap String String → OrderedMap String String) (reply : RedisReply) :
    AncestorChainCache :=
  if cache.redisAlive = false then cache
  else match reply with
    | .ok => (cache.changeHash fingerprint effect).noteRedisOk
    | .failed true => (cache.changeHash fingerprint effect).noteRedisFail
    | .failed false => cache.noteRedisFail

def track (fingerprint : Fingerprint) (update : String → Option (Option Chain)) :
    AncestorChainCache :=
  { cache with current := fun other urn =>
      if other = fingerprint then (update urn).getD (cache.current other urn)
      else cache.current other urn }

def set (urn : String) (chain : Chain) (fingerprint : Fingerprint) (reply : RedisReply) :
    AncestorChainCache :=
  let remembered := (cache.track fingerprint fun other =>
    if other = urn then some (some chain) else none).remember fingerprint urn chain
  remembered.writeRedis fingerprint (fun hash => hash.set urn (codec.encode chain)) reply

def mset (mapping : OrderedMap String Chain) (fingerprint : Fingerprint) (reply : RedisReply) :
    AncestorChainCache :=
  if mapping.entries = [] then cache
  else
    let remembered := mapping.entries.foldl
      (fun cache entry => cache.remember fingerprint entry.1 entry.2)
      (cache.track fingerprint fun urn => (mapping.get urn).map some)
    remembered.writeRedis fingerprint (fun hash => mapping.entries.foldl
      (fun hash entry => hash.set entry.1 (codec.encode entry.2)) hash) reply

def invalidate (urn : String) (fingerprint : Fingerprint) (reply : RedisReply) :
    AncestorChainCache :=
  let dropped := cache.track fingerprint fun other => if other = urn then some none else none
  let forgotten : AncestorChainCache :=
    { dropped with memory := cache.memory.erase (cache.memoryKey fingerprint urn) }
  forgotten.writeRedis fingerprint (fun hash => hash.erase urn) reply

def invalidateFingerprint (fingerprint : Fingerprint) (reply : RedisReply) :
    AncestorChainCache :=
  let dropped := cache.track fingerprint fun _ => some none
  let forgotten : AncestorChainCache :=
    { dropped with memory := cache.memory.restrict fun key =>
        ! (cache.memoryPrefix fingerprint).toList.isPrefixOf key.toList }
  forgotten.writeRedis fingerprint (fun _ => .empty) reply

def step : CacheCall → Option AncestorChainCache
  | .get urn fingerprint failed => some (cache.get codec urn fingerprint failed).2
  | .mget urns fingerprint failed => some (cache.mget codec urns fingerprint failed).2
  | .set urn chain fingerprint reply => some (cache.set codec urn chain fingerprint reply)
  | .mset mapping fingerprint reply => some (cache.mset codec mapping fingerprint reply)
  | .invalidate urn fingerprint reply => some (cache.invalidate urn fingerprint reply)
  | .invalidateFingerprint fingerprint reply => some (cache.invalidateFingerprint fingerprint reply)

/-- A new cache over what Redis has. -/
def start (keyspace : String) (redisClient : Bool)
    (redis : String → OrderedMap String String) : AncestorChainCache where
  keyspace := keyspace
  redisClient := redisClient
  redisFailures := 0
  memory := .empty
  redis := redis
  current fingerprint urn :=
    ((redis (keyspace ++ ":ancestors:" ++ fingerprint.text)).get urn).map codec.decode

end AncestorChainCache

end Univiz.Providers
