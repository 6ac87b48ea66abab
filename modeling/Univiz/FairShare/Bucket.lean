import Mathlib.Algebra.Order.Floor.Ring
import Mathlib.Data.Rat.Floor
import Mathlib.Tactic.Linarith
import Univiz.Data.Span
import Univiz.Data.Transition

namespace Univiz.FairShare

open Univiz.Data

/-! The token bucket of a workspace: a hash in Redis that a script refills and
charges in one step.  Times are milliseconds and numbers are exact. -/

structure BucketConfig where
  ratePerSec : ℚ
  burst : ℕ
  refills : 0 < ratePerSec

structure Bucket where
  tokens : ℚ
  ts : Int

structure Reply where
  allowed : Bool
  retryAfterMs : Int

/-- The script's answer, the hash it leaves and the seconds until this may expire. -/
structure Evaluation where
  reply : Reply
  bucket : Bucket
  ttl : Int

namespace BucketConfig

variable (config : BucketConfig)

/-- The tokens a take finds, once the time since the stored one is credited. -/
def refilled (bucket : Option Bucket) (nowMs : Int) : ℚ :=
  let bucket := bucket.getD ⟨config.burst, nowMs⟩
  let elapsed : ℚ := ((nowMs - bucket.ts : Int) : ℚ) / 1000
  if 0 < elapsed then min config.burst (bucket.tokens + elapsed * config.ratePerSec)
  else bucket.tokens

def luaTake (bucket : Option Bucket) (cost nowMs : Int) : Evaluation :=
  let tokens := config.refilled bucket nowMs
  let ttl := max (⌈config.burst / config.ratePerSec⌉ + 10) 60
  if (cost : ℚ) ≤ tokens then ⟨⟨true, 0⟩, ⟨tokens - cost, nowMs⟩, ttl⟩
  else ⟨⟨false, ⌈(cost - tokens) / config.ratePerSec * 1000⌉⟩, ⟨tokens, nowMs⟩, ttl⟩

end BucketConfig

structure TakeResult where
  allowed : Bool
  retryAfterSeconds : Int

/-- How the evaluation of the script goes: on a Redis error it may have run or not. -/
inductive Contact
  | answered | unanswered | unreached
deriving DecidableEq

def Contact.runs : Contact → Bool
  | .answered | .unanswered => true
  | .unreached => false

/-- The caller's result.  Endpoints without a bucket, requests without a workspace and
Redis errors are let through. -/
def take (config : Option BucketConfig) (workspaceId : String) (contact : Contact)
    (script : BucketConfig → Reply) : TakeResult :=
  match config with
  | none => ⟨true, 0⟩
  | some config =>
      if workspaceId = "" then ⟨true, 0⟩
      else if contact = .answered then
        let reply := script config
        ⟨reply.allowed,
          if reply.allowed then 0 else max 1 ⌈(reply.retryAfterMs : ℚ) / 1000⌉⟩
      else ⟨true, 0⟩

/-! One key over time. -/

structure Taken where
  nowMs : Int
  cost : Int
  allowed : Bool
  left : ℚ

/-- A key, Redis's own clock, and the evaluations of the script so far, latest first. -/
structure Redis where
  bucket : Option Bucket := none
  clockMs : Int := 0
  expiresMs : Int := 0
  log : List Taken := []

def Redis.nows (redis : Redis) : List Int := redis.log.map (·.nowMs)

def Redis.admitted (redis : Redis) : Int :=
  ((redis.log.filter (·.allowed)).map (·.cost)).sum

inductive Event
  | take (cost nowMs : Int) (contact : Contact)
  | passes (ms : Nat)
  | expires

def step (config : BucketConfig) (redis : Redis) : Event → Option Redis
  | .take cost nowMs contact =>
      if contact.runs then
        let done := config.luaTake redis.bucket cost nowMs
        some { redis with
          bucket := some done.bucket
          expiresMs := redis.clockMs + done.ttl * 1000
          log := ⟨nowMs, cost, done.reply.allowed, done.bucket.tokens⟩ :: redis.log }
      else some redis
  | .passes ms => some { redis with clockMs := redis.clockMs + ms }
  | .expires =>
      if redis.bucket.isSome ∧ redis.expiresMs ≤ redis.clockMs then
        some { redis with bucket := none }
      else none

/-- No more is let through than the burst and the rate allow. -/
def Redis.Fair (config : BucketConfig) (redis : Redis) : Prop :=
  (redis.admitted : ℚ) ≤ config.burst + config.ratePerSec * span redis.nows / 1000 ∧
    ∀ bucket ∈ redis.bucket, 0 ≤ bucket.tokens ∧ bucket.tokens ≤ config.burst

end Univiz.FairShare
